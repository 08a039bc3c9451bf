import Barbaro.Lib.Process
import Barbaro.Workstreams.RecordSize

/-!
# Admission, file by file

An admission reads the consent record of its session and the files of the workstream
store, each at a time of its own, and may create a workstream and write the record. Here it
is the process of these operations, so that any number of admissions, and whatever else
works on the files, can be interleaved between any two of them.

* `resolve_eval`: undisturbed, a name resolves as in the store.
* `create_eval`: undisturbed, a creation writes what it writes in the store.

Directories are not modelled, and of a lock only that it is taken and released: more
interleavings are possible here than locks allow.
-/

namespace Barbaro.Hooks

open Workstreams

/-! ## Files -/

/-- What admissions read and write. -/
structure AdmissionFiles where
  consents : ParticipatingProvider → JsString → Option Bytes
  store : StoreFiles

inductive LockTarget
  | consent (provider : ParticipatingProvider) (sessionId : JsString)
  | workstreams
  deriving DecidableEq, Repr

inductive FileOp
  | readConsent (provider : ParticipatingProvider) (sessionId : JsString)
  | readClaim (name : JsString)
  | readRecord (id : JsString)
  /-- `readdir` of the records. -/
  | listRecords
  /-- `randomBytes(16)` -/
  | randomId
  | lock (target : LockTarget)
  | unlock (target : LockTarget)
  | writeConsent (provider : ParticipatingProvider) (sessionId : JsString) (bytes : Bytes)
  | writeStore (w : Write)

def FileOp.Ret : FileOp → Type
  | .readConsent .. | .readClaim _ | .readRecord _ => Option Bytes
  | .listRecords => List JsString
  | .randomId => ℕ
  | .lock _ | .unlock _ | .writeConsent .. | .writeStore _ => Unit

/-- What an operation may answer in a state. -/
def FileOp.Answers : (o : FileOp) → AdmissionFiles → o.Ret → Prop
  | .readConsent provider sessionId, files, bytes => bytes = files.consents provider sessionId
  | .readClaim name, files, bytes => bytes = files.store.claims name
  | .readRecord id, files, bytes => bytes = files.store.records id
  | .listRecords, files, (ids : List JsString) => ids.Pairwise (· < ·) ∧
      ∀ id, id ∈ ids ↔ isWorkstreamId id = true ∧ files.store.records id ≠ none
  | .randomId, _, _ => True
  | .lock _, _, _ | .unlock _, _, _ | .writeConsent .., _, _ | .writeStore _, _, _ => True

/-- `writeJsonFileAtomically` replaces a file as a whole; nothing else changes one. -/
def FileOp.effect : FileOp → AdmissionFiles → AdmissionFiles
  | .writeConsent provider sessionId bytes, files =>
    let sessions := Function.update (files.consents provider) sessionId (some bytes)
    { files with consents := Function.update files.consents provider sessions }
  | .writeStore w, files => { files with store := w.apply files.store }
  | _, files => files

def FileOp.writes : FileOp → Bool
  | .writeConsent .. | .writeStore _ => true
  | _ => false

theorem FileOp.effect_of_not_writes {o : FileOp} (h : o.writes = false) (files : AdmissionFiles) :
    o.effect files = files := by
  cases o <;> first | rfl | cases h

/-! ## Processes that may throw -/

abbrev Hook (α : Type) := ExceptT WorkstreamFailure (Process FileOp FileOp.Ret) α

def perform (o : FileOp) : Hook o.Ret := ExceptT.lift (Process.perform o)

def ofExcept {α : Type} (x : Except WorkstreamFailure α) : Hook α := ExceptT.mk (pure x)

def ofFailure {α : Type} (x : Except Failure α) : Hook α := ofExcept (x.mapError .failure)

/-- `try`: the result, or what was thrown. -/
def attempt {α : Type} (h : Hook α) : Hook (Except WorkstreamFailure α) := ExceptT.lift h.run

/-- What was thrown is the result; otherwise the process goes on. -/
theorem run_bind {α β : Type} (x : Hook α) (f : α → Hook β) :
    (x >>= f).run = x.run.bind (fun result => match result with
      | .ok a => (f a).run
      | .error failure => .ret (.error failure)) := by
  change Process.bind _ _ = _
  congr 1
  funext result
  cases result with
  | ok a => rfl
  | error failure => rfl

/-- `withDirectoryLock` -/
def withDirectoryLock {α : Type} (target : LockTarget) (operation : Hook α) : Hook α := do
  perform (.lock target)
  let result ← attempt operation
  perform (.unlock target)
  ofExcept result

variable (E : Host)

/-! ## The store -/

/-- Read one record by ID. -/
def get (id : JsString) : Hook (Option Json) :=
  if !isWorkstreamId id then
    ofExcept (.error (.failure (.typeError s!"Invalid workstream_id: {messageText (Json.quote id)}")))
  else do
    let file ← perform (.readRecord id)
    match ← ofExcept (readUtf8File (recordPath id) Workstreams.maxRecordBytes file) with
    | none => return none
    | some text =>
      let record ← ofExcept (parseWorkstream E text (some id))
      return some record

def resolveName (name : JsString) : Hook (Option Json) := do
  let file ← perform (.readClaim name)
  match ← ofExcept (readUtf8File (claimPath name) maxClaimBytes file) with
  | none => return none
  | some claimText =>
    match claimedId E claimText with
    | none => return none
    | some id =>
      match ← attempt (get E id) with
      | .ok (some record) => return if textAt? "name" record = some name then some record else none
      | _ => return none

def resolve (reference : JsString) : Hook (Option Json) :=
  if isWorkstreamId reference then get E reference
  else if !isWorkstreamName reference then return none
  else resolveName E reference

/-- Every record that can be read. -/
def readRecords : List JsString → Hook (List Json)
  | [] => return []
  | id :: ids => do
    let result ← attempt (get E id)
    let records ← readRecords ids
    match result with
    | .ok (some record) => return record :: records
    | _ => return records

/-- `compareUtf16CodeUnits` of the names, and then of the ids. -/
def recordLe (a b : Json) : Bool :=
  textAt "name" a < textAt "name" b ||
    (textAt "name" a == textAt "name" b && textAt "workstream_id" a ≤ textAt "workstream_id" b)

/-- Every valid record, sorted by name then ID. -/
def list : Hook (List Json) := do
  let ids ← perform .listRecords
  let records ← readRecords E ids
  return records.mergeSort recordLe

def performWrites : List Write → Hook Unit
  | [] => return ()
  | w :: ws => do
    perform (.writeStore w)
    performWrites ws

/-- Create a workstream. -/
def create (options : CreateWorkstreamOptions) : Hook Creation := do
  -- what is checked before the lock does not depend on the id
  let _ ← ofExcept (creationOf E options 0)
  withDirectoryLock .workstreams do
    match ← resolveName E options.name with
    | some existing => ofExcept (.error (.nameTaken existing))
    | none =>
      let random ← perform .randomId
      let c ← ofExcept (creationOf E options random)
      performWrites c.writes
      return c

/-! ## The consent record -/

section
variable {E}

/-- A record of the store, as far as an admission looks at it. -/
def workstreamOf (record : Json) : Option WorkstreamV1 :=
  if h : isWorkstreamId (textAt "workstream_id" record) = true then
    some ⟨textAt "workstream_id" record, textAt "name" record,
      if textAt "status" record = WorkstreamStatus.open.text then .open else .completed, h⟩
  else none

/-- Every record that is read is one. -/
theorem workstreamOf_isSome {text : JsString} {expected : Option JsString} {record : Json}
    (h : parseWorkstream E text expected = .ok record) : (workstreamOf record).isSome = true := by
  unfold parseWorkstream at h
  split at h
  · cases h
  · simp only [Outcome.guard_ok, Bool.not_eq_true', Bool.not_eq_false] at h
    obtain ⟨-, -, hvalid, h⟩ := h
    cases h
    simp only [isWorkstream, Bool.and_eq_true] at hvalid
    have hid := hvalid.1.1.1.1.1.1.1.1
    unfold isPattern at hid
    rw [workstreamOf, dif_pos]
    · rfl
    · unfold textAt
      split at hid
      · next s hs => simpa [hs] using hid
      · cases hid

/-- The workstream that was created; its id has the form of one (`isWorkstreamId_new`). -/
def createdWorkstream (c : Creation) : Option WorkstreamV1 :=
  if h : isWorkstreamId c.workstreamId = true then some ⟨c.workstreamId, c.name, .open, h⟩ else none

end

def readComponents (provider : ParticipatingProvider) (sessionId : JsString) :
    Hook (Option (SessionParticipation E)) := do
  let file ← perform (.readConsent provider sessionId)
  ofFailure (readParticipation E provider sessionId file)

/-! ## Enrollment -/

variable (provider : ParticipatingProvider) (sessionId : JsString)

/-- `#decide` -/
def decide (r : Enrollment) : Hook (Decision E) := do
  let existing ← readComponents E provider sessionId
  let resolved := (← resolve E r.name).bind workstreamOf
  match existing with
  | none => return decideFirst provider r resolved
  | some p =>
    match decideMove provider [] r p resolved with
    | .proceed q =>
      match p.workstreamId with
      | none => return .proceed q
      | some id =>
        let previous ← get E id
        return .proceed { q with previousWorkstream := previous.bind workstreamOf }
    | d => return d

/-- The record is extended, and written. -/
def writeMove (p : Proceeding E) (w : WorkstreamV1) (created : Bool) (joinedAt : ℤ) :
    Hook (HookSessionAdmission E) := do
  let (admission, bytes) ← ofFailure (writeMembership provider sessionId p w created joinedAt)
  perform (.writeConsent provider sessionId bytes)
  return admission

/-- What is done under the lock of the consent record. -/
def enrollLocked (r : Enrollment) (joinedAt : ℤ) : Hook (HookSessionAdmission E) := do
  match ← decide E provider sessionId r with
  | .refuse admission | .idempotent admission => return admission
  | .proceed p =>
    match p.workstream with
    | some w => writeMove E provider sessionId p w false joinedAt
    | none =>
      match ← attempt (create E ⟨r.name, none, .session provider.text sessionId, r.now⟩) with
      | .ok c =>
        match createdWorkstream c with
        | some w => writeMove E provider sessionId p w true joinedAt
        | none => ofExcept (.error (.failure (.typeError "Invalid workstream_id")))
      | .error (.nameTaken existing) =>
        match workstreamOf existing with
        | some w =>
          -- a concurrent creator made the name; an existing member may move there
          if p.existing.isSome ∧ w.status = .open then writeMove E provider sessionId p w false joinedAt
          else return refusal p.existing (existsMessage w (barbaroToken provider))
        | none => ofExcept (.error (.nameTaken existing))
      | .error failure => ofExcept (.error failure)

/-- `#enroll` -/
def enroll (r : Enrollment) : Hook (HookSessionAdmission E) :=
  match r.now with
  | none => ofFailure (.error (.typeError "now must be a valid date"))
  | some joinedAt =>
    if !isWorkstreamName r.name then do
      let existing ← readComponents E provider sessionId
      return refusal existing (invalidNameMessage r.name)
    else do
      -- read-only, and made again under the lock: it only short-circuits
      match ← decide E provider sessionId r with
      | .refuse admission | .idempotent admission => return admission
      | .proceed _ =>
        withDirectoryLock (.consent provider sessionId) (enrollLocked E provider sessionId r joinedAt)

/-! ## Bare invocations -/

def describeMembership (participation : SessionParticipation E) : Hook JsString :=
  match participation.workstreamId with
  | none => return (js "Barbaro: this session joined before workstreams existed and is " ++
      js "unscoped until it moves forward to a workstream.")
  | some id => do
    match (← get E id).bind workstreamOf with
    | none => return (js "Barbaro: this session belongs to workstream " ++ id ++ js ".")
    | some w => return (js "Barbaro: this session belongs to workstream " ++ quoted w.name ++ js " (" ++
        w.workstreamId ++ js ", " ++ w.status.text ++ js ").")

def rosterMessage (open_ : List WorkstreamV1) : JsString :=
  let token := barbaroToken provider
  let roster :=
    if open_.isEmpty then js "No open workstreams exist in this project."
    else js "Open workstreams: " ++ (js ", ").intercalate (open_.map (·.name)) ++ js "."
  js "Barbaro: this session has not joined a workstream, so nothing is " ++ js "published yet." ++
    js " " ++ roster ++ js " Re-invoke as `" ++ token ++ js " join <name>` or `" ++ token ++
    js " new <name>`; the task may follow on the same line."

/-- `#describe` -/
def describe : Hook (HookSessionAdmission E) := do
  match ← readComponents E provider sessionId with
  | some p =>
    let message ← describeMembership E p
    return { joined := true, initiated := false, participation := some p, message := some message }
  | none =>
    let records ← list E
    let open_ := (records.filterMap workstreamOf).filter (fun w => w.status = .open)
    return {
      joined := false, initiated := false, pending := some (js "workstream-selection")
      message := some (rosterMessage provider open_) }

/-! ## Admission -/

/-- What a prompt asks for, if it asks for anything. -/
inductive BarbaroInvocation
  | absent
  | bare
  | enroll (r : Enrollment)
  deriving DecidableEq, Repr

structure AdmissionRequest where
  provider : ParticipatingProvider
  sessionId : JsString
  invocation : BarbaroInvocation
  deriving DecidableEq, Repr

/-- `admit` -/
def admission (request : AdmissionRequest) : Hook (HookSessionAdmission E) :=
  match request.invocation with
  | .absent => do
    match ← readComponents E request.provider request.sessionId with
    | none => return { joined := false, initiated := false }
    | some p => return { joined := true, initiated := false, participation := some p }
  | .bare => describe E request.provider request.sessionId
  | .enroll r => Hooks.enroll E request.provider request.sessionId r

/-! ## Undisturbed -/

variable {E}

/-- The files answer for themselves; the directory and the random id are given. -/
def answerAlone (ids : AdmissionFiles → List JsString) (random : ℕ) :
    (o : FileOp) → AdmissionFiles → o.Ret × AdmissionFiles
  | .readConsent provider sessionId, files => (files.consents provider sessionId, files)
  | .readClaim name, files => (files.store.claims name, files)
  | .readRecord id, files => (files.store.records id, files)
  | .listRecords, files => (ids files, files)
  | .randomId, files => (random, files)
  | .lock _, files => ((), files)
  | .unlock _, files => ((), files)
  | .writeConsent provider sessionId bytes, files =>
    ((), (FileOp.writeConsent provider sessionId bytes).effect files)
  | .writeStore w, files => ((), (FileOp.writeStore w).effect files)

variable {ids : AdmissionFiles → List JsString} {random : ℕ}

@[simp] theorem eval_hook_bind {α β : Type} (x : Hook α) (f : α → Hook β) (files : AdmissionFiles) :
    Process.eval (answerAlone ids random) (x >>= f).run files =
      match Process.eval (answerAlone ids random) x.run files with
      | (.ok a, files') => Process.eval (answerAlone ids random) (f a).run files'
      | (.error failure, files') => (.error failure, files') := by
  rw [run_bind, Process.eval_bind]
  rcases Process.eval (answerAlone ids random) x.run files with ⟨failure | a, files'⟩
  · rfl
  · rfl

@[simp] theorem eval_hook_pure {α : Type} (a : α) (files : AdmissionFiles) :
    Process.eval (answerAlone ids random) (pure a : Hook α).run files = (.ok a, files) := rfl

@[simp] theorem eval_ofExcept {α : Type} (x : Except WorkstreamFailure α) (files : AdmissionFiles) :
    Process.eval (answerAlone ids random) (ofExcept x).run files = (x, files) := rfl

@[simp] theorem eval_hook_perform (o : FileOp) (files : AdmissionFiles) :
    Process.eval (answerAlone ids random) (perform o).run files =
      (.ok (answerAlone ids random o files).1, (answerAlone ids random o files).2) := rfl

@[simp] theorem eval_attempt {α : Type} (h : Hook α) (files : AdmissionFiles) :
    Process.eval (answerAlone ids random) (attempt h).run files =
      (.ok (Process.eval (answerAlone ids random) h.run files).1,
        (Process.eval (answerAlone ids random) h.run files).2) :=
  Process.eval_bind _ h.run _ files

/-- Reading a record is one operation, and what the store makes of its answer. -/
theorem get_eq (id : JsString) (h : isWorkstreamId id = true) :
    get E id = (do
      let file ← perform (.readRecord id)
      ofExcept (Workstreams.get E ⟨fun _ => none, fun _ => file⟩ id)) := by
  rw [get, if_neg (by simp [h])]
  congr 1
  funext file
  rw [Workstreams.get, if_neg (by simp [h])]
  rcases readUtf8File (recordPath id) Workstreams.maxRecordBytes file with failure | _ | text
  · rfl
  · rfl
  · simp only [Outcome.ok_bind]
    change (ofExcept (parseWorkstream E text (some id)) >>= fun record => pure (some record)) = _
    rcases parseWorkstream E text (some id) with failure | record <;> rfl

theorem get_eval (id : JsString) (files : AdmissionFiles) :
    Process.eval (answerAlone ids random) (get E id).run files = (Workstreams.get E files.store id, files) := by
  by_cases h : isWorkstreamId id = true
  · rw [get_eq id h, eval_hook_bind, eval_hook_perform]
    rfl
  · have hfalse : isWorkstreamId id = false := by simpa using h
    rw [get, Workstreams.get, if_pos (by simp [hfalse]), if_pos (by simp [hfalse]), eval_ofExcept]

theorem resolveName_eval (name : JsString) (files : AdmissionFiles) :
    Process.eval (answerAlone ids random) (resolveName E name).run files =
      (Workstreams.resolveName E files.store name, files) := by
  rw [resolveName, Workstreams.resolveName, eval_hook_bind, eval_hook_perform]
  simp only [answerAlone, eval_hook_bind, eval_ofExcept]
  rcases readUtf8File (claimPath name) maxClaimBytes (files.store.claims name) with failure | _ | claimText
  · rfl
  · rfl
  · simp only [Outcome.ok_bind]
    rcases claimedId E claimText with _ | id
    · rfl
    · simp only [eval_hook_bind, eval_attempt, get_eval]
      rcases Workstreams.get E files.store id with failure | _ | record <;> rfl

/-- **A name resolves as in the store**, when nothing happens meanwhile. -/
theorem resolve_eval (reference : JsString) (files : AdmissionFiles) :
    Process.eval (answerAlone ids random) (resolve E reference).run files =
      (Workstreams.resolve E files.store reference, files) := by
  rw [resolve, Workstreams.resolve]
  split
  · exact get_eval reference files
  · split
    · rfl
    · exact resolveName_eval reference files

theorem performWrites_eval (ws : List Write) (files : AdmissionFiles) :
    Process.eval (answerAlone ids random) (performWrites ws).run files =
      (.ok (), { files with store := applyWrites files.store ws }) := by
  induction ws generalizing files with
  | nil => rfl
  | cons w ws ih =>
    have hbind := @eval_hook_bind ids random _ _ (perform (.writeStore w)) (fun _ => performWrites ws) files
    exact hbind.trans (ih _)

theorem withDirectoryLock_eval {α : Type} (target : LockTarget) (h : Hook α) (files : AdmissionFiles) :
    Process.eval (answerAlone ids random) (withDirectoryLock target h).run files =
      Process.eval (answerAlone ids random) h.run files := by
  have hlocked : (withDirectoryLock target h).run = (perform (.lock target) >>= fun _ =>
      attempt h >>= fun result => perform (.unlock target) >>= fun _ => ofExcept result : Hook α).run := rfl
  rw [hlocked]
  simp only [eval_hook_bind, eval_hook_perform, eval_attempt, eval_ofExcept]
  rfl

/-- **A creation writes what it writes in the store**, when nothing happens meanwhile. -/
theorem create_eval {options : CreateWorkstreamOptions} {files : AdmissionFiles} {ws : List Write}
    {record : Json} (h : Workstreams.create E files.store options random = .ok (ws, record)) :
    ∃ c, creationOf E options random = .ok c ∧ c.record = record ∧
      Process.eval (answerAlone ids random) (create E options).run files =
        (.ok c, { files with store := applyWrites files.store ws }) := by
  unfold Workstreams.create at h
  rcases hc : creationOf E options random with failure | c
  · rw [hc] at h
    cases h
  rw [hc, Outcome.ok_bind] at h
  have hname : c.name = options.name := by
    simp only [creationOf, Outcome.guard_ok, Outcome.bind_ok, Outcome.pure_ok] at hc
    obtain ⟨-, -, -, -, -, -, -, rfl⟩ := hc
    rfl
  rw [hname] at h
  rcases hfree : Workstreams.resolveName E files.store options.name with failure | _ | existing
  · rw [hfree] at h
    cases h
  · rw [hfree] at h
    obtain ⟨rfl, rfl⟩ : c.writes = ws ∧ c.record = record := by
      cases h
      exact ⟨rfl, rfl⟩
    have hchecks : ∃ c₀, creationOf E options 0 = .ok c₀ := by
      simp only [creationOf, Outcome.guard_ok, Outcome.bind_ok, Outcome.pure_ok] at hc ⊢
      obtain ⟨hvalid, u, hcreator, title, htitle, t, ht, -⟩ := hc
      exact ⟨_, hvalid, u, hcreator, title, htitle, t, ht, rfl⟩
    obtain ⟨c₀, hc₀⟩ := hchecks
    refine ⟨c, rfl, rfl, ?_⟩
    rw [create, eval_hook_bind, eval_ofExcept, hc₀]
    simp only [withDirectoryLock_eval, eval_hook_bind, resolveName_eval, hfree, eval_hook_perform, answerAlone,
      eval_ofExcept, hc, performWrites_eval, eval_hook_pure]
  · rw [hfree] at h
    cases h

end Barbaro.Hooks
