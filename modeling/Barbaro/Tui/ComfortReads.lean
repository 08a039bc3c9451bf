import Barbaro.Tui.ComfortInput
import Barbaro.Tui.NewsTicker

/-!
# The reads of the comfort app

The app reads the store in the background: a refresh is a row of reads, one after the other, and
each writer is followed by a read of its own that tells what became of the write. All of them
end whenever they do, and what is done then depends on flags that were set meanwhile.

* `refresh`: a request; it is queued while a refresh is in flight or a lifecycle write is unsettled.
* `finishRefresh`: the end of a refresh, which is dropped if a lifecycle write began meanwhile.
* `step`: one event, of the terminal, of a timer, or the end of a read or of a writer.
-/

namespace Barbaro.Tui

/-- A catalogue, and when the read of it began. -/
structure ReadCatalogue where
  startedAt : ℕ
  value : ReaderCatalogue

inductive ComfortMode
  | home
  | dashboard
  deriving DecidableEq, Repr

/-! ## What is in flight -/

/-- The read that a refresh waits for. -/
inductive RefreshStage
  | health
  | catalogue (startedAt : ℕ)
  | context (catalogue : ReadCatalogue)

structure RefreshRead where
  generation : ℕ
  initial : Bool
  mode : ComfortMode
  stage : RefreshStage

/-- The lifecycle of a workstream is changed: asked, written, read back, told. -/
inductive LifecyclePhase
  | none
  | confirm (target : JsString)
  | writing (target : JsString)
  | reading (target : JsString) (startedAt : ℕ)
  | scoped (first startedAt : ℕ)
  /-- The lookup is there; the start of the last read of it that succeeded. -/
  | resuming (settledFrom : Option ℕ)
  | settled (confirmed : Bool)
  deriving DecidableEq

/-- The write was begun and its outcome is not told yet. -/
def LifecyclePhase.unsettled : LifecyclePhase → Bool
  | .writing _ | .reading .. | .scoped .. | .resuming _ => true
  | _ => false

/-- A workstream is created: filled in, written, read back, told. -/
inductive CreatePhase
  | none
  | form
  | writing
  | reading (startedAt : ℕ)
  | resuming (settledFrom : Option ℕ)
  | settled
  deriving DecidableEq

structure StartupState where
  readSettled : Bool
  minimumMet : Bool
  deriving DecidableEq

/-! ## The app -/

structure ComfortApp where
  closed : Bool := false
  startup : Option StartupState
  mode : ComfortMode
  helpOpen : Bool := false
  lifecycle : LifecyclePhase := .none
  lifecycleFilm : Bool := false
  lifecycleOrigin : ComfortMode := .home
  create : CreatePhase := .none
  refreshTimer : Bool := false
  readInFlight : Bool := false
  readQueued : Bool := false
  readGeneration : ℕ := 0
  lifecycleReadLock : Bool := false
  /-- `model.catalogue` -/
  catalogue : Option ReadCatalogue := none
  refreshReads : List RefreshRead := []
  /-- The events so far. -/
  clock : ℕ := 0
  /-- The refreshes that were started. -/
  refreshesStarted : ℕ := 0
  /-- The requests during a refresh or a lifecycle write, each as the refreshes started before it. -/
  requestsMeanwhile : List ℕ := []
  /-- The starts of the reconciling reads that an outcome was settled from. -/
  settledReads : List ℕ := []

/-- What a command depends on besides the state of the reads. -/
structure Surroundings where
  /-- The Escape was pressed during a film that is over by now. -/
  staleBack : Bool
  card : Bool
  framedTier : Bool
  filmLive : Bool
  /-- The workstream that the command is about. -/
  selection : Option JsString
  formValid : Bool

inductive AppEvent
  | command (command : ComfortCommand) (world : Surroundings)
  | signal
  | refreshTick
  | startupTick (strideComplete : Bool)
  | filmTick (warned : Bool)
  | filmRetired
  | healthRead (i : ℕ) (present : Option Bool)
  | catalogueRead (i : ℕ) (value : Option ReaderCatalogue)
  | contextRead (i : ℕ) (ok : Bool)
  | lifecycleWriter
  | lifecycleRead (value : Option ReaderCatalogue)
  | lifecycleScoped (ok : Bool)
  | lifecycleResume (confirmed finished warned : Bool)
  | createWriter
  | createRead (value : Option ReaderCatalogue)
  | createResume

namespace ComfortApp

/-! ## Refreshes -/

/-- A request while something is in flight is remembered for the history. -/
def noteRequest (s : ComfortApp) : ComfortApp :=
  if s.refreshReads ≠ [] ∨ s.lifecycle.unsettled then
    { s with requestsMeanwhile := s.refreshesStarted :: s.requestsMeanwhile }
  else s

/-- A refresh starts with the read of the store's health. -/
def startRefresh (initial : Bool) (s : ComfortApp) : ComfortApp :=
  { s with
    readInFlight := true
    refreshReads := s.refreshReads ++ [⟨s.readGeneration, initial, s.mode, .health⟩]
    refreshesStarted := s.refreshesStarted + 1 }

def refresh (initial : Bool) (s : ComfortApp) : ComfortApp :=
  let s := s.noteRequest
  if s.lifecycleReadLock then { s with readQueued := true }
  else if s.readInFlight then { s with readQueued := true }
  else s.startRefresh initial

/-- `if (readQueued) { readQueued = false; void refresh(); }` -/
def refreshQueued (s : ComfortApp) : ComfortApp :=
  if s.readQueued then refresh false { s with readQueued := false } else s

/-- Handoff is the conjunction: one stride and the complete first read. -/
def maybeFinishStartup (s : ComfortApp) : Bool × ComfortApp :=
  match s.startup with
  | none => (false, s)
  | some startup =>
    if startup.readSettled ∧ startup.minimumMet ∧ ¬ s.closed then
      (true, { s with startup := none, refreshTimer := true })
    else (false, s)

/-- What the reads of a refresh gave: nothing after a failure, else what is to be on screen. -/
def commit (snapshot : Option (Option ReadCatalogue)) (s : ComfortApp) : ComfortApp :=
  match snapshot with
  | none => s
  | some catalogue => { s with catalogue }

/-- The refresh with this index is over. -/
def retire (i : ℕ) (s : ComfortApp) : ComfortApp :=
  { s with readInFlight := false, refreshReads := s.refreshReads.eraseIdx i }

/-- The end of a refresh after its last read. -/
def finishRefresh (i : ℕ) (read : RefreshRead) (snapshot : Option (Option ReadCatalogue)) (s : ComfortApp) :
    ComfortApp :=
  let s := s.retire i
  if s.closed then s
  else if read.generation ≠ s.readGeneration then
    if s.readQueued ∧ ¬ s.lifecycleReadLock then s.refreshQueued else s
  else
    let s := s.commit snapshot
    match read.initial, s.startup with
    | true, some startup =>
      let (handedOff, s) := maybeFinishStartup { s with startup := some { startup with readSettled := true } }
      if handedOff then s else s.refreshQueued
    | _, _ => s.refreshQueued

/-- The refresh goes on to another read. -/
def advance (i : ℕ) (read : RefreshRead) (stage : RefreshStage) (s : ComfortApp) : ComfortApp :=
  { s with refreshReads := s.refreshReads.set i { read with stage } }

def healthRead (i : ℕ) (present : Option Bool) (s : ComfortApp) : ComfortApp :=
  match s.refreshReads[i]? with
  | some read =>
    match read.stage with
    | .health =>
      if s.closed then s.retire i
      else
        match present with
        | none => s.finishRefresh i read none
        | some false => s.finishRefresh i read (some none)
        | some true => s.advance i read (.catalogue s.clock)
    | _ => s
  | none => s

def catalogueRead (i : ℕ) (value : Option ReaderCatalogue) (s : ComfortApp) : ComfortApp :=
  match s.refreshReads[i]? with
  | some read =>
    match read.stage with
    | .catalogue startedAt =>
      if s.closed then s.retire i
      else
        match value with
        | none => s.finishRefresh i read none
        | some value =>
          if read.mode = .dashboard then s.advance i read (.context ⟨startedAt, value⟩)
          else s.finishRefresh i read (some (some ⟨startedAt, value⟩))
    | _ => s
  | none => s

def contextRead (i : ℕ) (ok : Bool) (s : ComfortApp) : ComfortApp :=
  match s.refreshReads[i]? with
  | some read =>
    match read.stage with
    | .context catalogue =>
      if s.closed then s.retire i
      else if ok then s.finishRefresh i read (some (some catalogue))
      else s.finishRefresh i read none
    | _ => s
  | none => s

/-! ## Lifecycle writes -/

def startLifecycleWriter (target : JsString) (filmLive : Bool) (s : ComfortApp) : ComfortApp :=
  { s with
    lifecycleFilm := filmLive
    lifecycle := .writing target
    lifecycleReadLock := true
    readGeneration := s.readGeneration + 1 }

/-- `finishLifecycleWriter` up to its read. -/
def finishLifecycleWriter (s : ComfortApp) : ComfortApp :=
  match s.lifecycle with
  | .writing target => if s.closed then s else { s with lifecycle := .reading target s.clock }
  | _ => s

/-- `reconcileLifecycleLookup` after its read of the whole catalogue. -/
def lifecycleRead (value : Option ReaderCatalogue) (s : ComfortApp) : ComfortApp :=
  match s.lifecycle, value with
  | .reading _ _, none => { s with lifecycle := .resuming none }
  | .reading target startedAt, some value =>
    let s := { s with catalogue := some ⟨startedAt, value⟩ }
    if value.workstreams.items.any (fun item => item.workstreamId = target) then
      { s with lifecycle := .resuming (some startedAt) }
    else if value.workstreams.hidden > 0 then { s with lifecycle := .scoped startedAt s.clock }
    else { s with lifecycle := .resuming (some startedAt) }
  | _, _ => s

/-- `reconcileLifecycleLookup` after its read of the one workstream. -/
def lifecycleScoped (ok : Bool) (s : ComfortApp) : ComfortApp :=
  match s.lifecycle with
  | .scoped first startedAt => { s with lifecycle := .resuming (some (if ok then startedAt else first)) }
  | _ => s

def closeLifecycleResult (confirmed : Bool) (s : ComfortApp) : ComfortApp :=
  { s with
    lifecycle := .none
    lifecycleFilm := false
    mode := if confirmed then .home else s.lifecycleOrigin }

/-- Finish a proven pass; warnings retain the result card. -/
def completeLifecycleFilm (warned : Bool) (s : ComfortApp) : ComfortApp :=
  match s.lifecycle with
  | .settled true => if warned then { s with lifecycleFilm := false } else s.closeLifecycleResult true
  | _ => { s with lifecycleFilm := false }

/-- `finishLifecycleWriter` after its read. -/
def lifecycleResume (confirmed finished warned : Bool) (s : ComfortApp) : ComfortApp :=
  match s.lifecycle with
  | .resuming settledFrom =>
    let s := { s with lifecycleReadLock := false }
    if s.closed then s
    else
      let film := s.lifecycleFilm
      let s := { s with
        lifecycle := .settled confirmed
        lifecycleFilm := s.lifecycleFilm && confirmed
        settledReads := settledFrom.toList ++ s.settledReads }
      let s := if film ∧ confirmed ∧ finished then s.completeLifecycleFilm warned else s
      s.refreshQueued
  | _ => s

/-! ## Create writes -/

/-- `startWriter` after the writer. -/
def createWriter (s : ComfortApp) : ComfortApp :=
  match s.create with
  | .writing => { s with create := .reading s.clock }
  | _ => s

/-- `reconcileLookup` after its read. -/
def createRead (value : Option ReaderCatalogue) (s : ComfortApp) : ComfortApp :=
  match s.create, value with
  | .reading _, none => { s with create := .resuming none }
  | .reading startedAt, some value =>
    { s with catalogue := some ⟨startedAt, value⟩, create := .resuming (some startedAt) }
  | _, _ => s

/-- `startWriter` after `reconcileLookup`. -/
def createResume (s : ComfortApp) : ComfortApp :=
  match s.create with
  | .resuming settledFrom => { s with create := .settled, settledReads := settledFrom.toList ++ s.settledReads }
  | _ => s

/-! ## Commands -/

def finish (s : ComfortApp) : ComfortApp := if s.closed then s else { s with closed := true, refreshTimer := false }

/-- `handleLifecycleCommand` -/
def handleLifecycleCommand (command : ComfortCommand) (world : Surroundings) (s : ComfortApp) : ComfortApp :=
  if s.lifecycleFilm then if command = .quit then s.finish else s
  else
    match command, s.lifecycle with
    | .quit, _ => s.finish
    | .back, .confirm _ => { s with lifecycle := .none, lifecycleFilm := false, mode := s.lifecycleOrigin }
    | .back, .settled confirmed => s.closeLifecycleResult confirmed
    | .open, .confirm target => if world.card then s.startLifecycleWriter target world.filmLive else s
    | .filter, .settled confirmed => s.closeLifecycleResult confirmed
    | .refresh, phase => if phase.unsettled then s else refresh false s
    | .help, phase => if phase.unsettled then s else { s with helpOpen := true }
    | _, _ => s

/-- `handleCreateCommand` -/
def handleCreateCommand (command : ComfortCommand) (world : Surroundings) (s : ComfortApp) : ComfortApp :=
  match command, s.create with
  | .quit, _ => s.finish
  | .back, .form => { s with create := .none }
  | .back, .settled => { s with create := .none }
  | .submit, .form => if world.formValid then { s with create := .writing } else s
  | .refresh, _ => refresh false s
  | .help, _ => { s with helpOpen := true }
  | _, _ => s

/-- The commands outside any overlay. -/
def handleMainCommand (command : ComfortCommand) (world : Surroundings) (s : ComfortApp) : ComfortApp :=
  match command with
  | .quit => s.finish
  | .refresh => refresh false s
  | .help => { s with helpOpen := true }
  | .back => { s with mode := .home }
  | .create => if s.mode = .home then { s with create := .form } else s
  | .lifecycle =>
    match world.framedTier, world.selection with
    | true, some target =>
      { s with lifecycle := .confirm target, lifecycleFilm := false, lifecycleOrigin := s.mode }
    | _, _ => s
  | .open => if s.mode = .home ∧ world.selection.isSome then refresh false { s with mode := .dashboard } else s
  | _ => s

def handleCommand (command : ComfortCommand) (world : Surroundings) (s : ComfortApp) : ComfortApp :=
  if command = .back ∧ world.staleBack then s
  else if s.startup.isSome ∧ command ≠ .quit then s
  else if s.helpOpen then
    match command with
    | .quit => s.finish
    | .back => { s with helpOpen := false }
    | _ => s
  else if s.lifecycle ≠ .none then s.handleLifecycleCommand command world
  else if s.create ≠ .none then s.handleCreateCommand command world
  else s.handleMainCommand command world

/-! ## Steps -/

/-- What an event does, at the time of the clock. -/
def handle (s : ComfortApp) : AppEvent → ComfortApp
  | .command command world => if s.closed then s else s.handleCommand command world
  | .signal => s.finish
  | .refreshTick => if s.refreshTimer then refresh false s else s
  | .startupTick strideComplete =>
    match s.startup with
    | some startup =>
      if s.closed then s
      else (maybeFinishStartup { s with startup := some { startup with minimumMet := strideComplete } }).2
    | none => s
  | .filmTick warned =>
    if s.lifecycleFilm ∧ s.lifecycle = .settled true ∧ ¬ s.closed then s.completeLifecycleFilm warned else s
  | .filmRetired => { s with lifecycleFilm := false }
  | .healthRead i present => s.healthRead i present
  | .catalogueRead i value => s.catalogueRead i value
  | .contextRead i ok => s.contextRead i ok
  | .lifecycleWriter => s.finishLifecycleWriter
  | .lifecycleRead value => s.lifecycleRead value
  | .lifecycleScoped ok => s.lifecycleScoped ok
  | .lifecycleResume confirmed finished warned => s.lifecycleResume confirmed finished warned
  | .createWriter => s.createWriter
  | .createRead value => s.createRead value
  | .createResume => s.createResume

def step (s : ComfortApp) (e : AppEvent) : ComfortApp := { s.handle e with clock := s.clock + 1 }

def run (s : ComfortApp) (events : List AppEvent) : ComfortApp := events.foldl step s

/-- The app as it starts: the first refresh is in flight. -/
def start (mode : ComfortMode) (motionAllowed : Bool) : ComfortApp :=
  refresh true { startup := some { readSettled := false, minimumMet := !motionAllowed }, mode }

end ComfortApp

end Barbaro.Tui
