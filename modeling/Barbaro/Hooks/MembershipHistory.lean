import Barbaro.Hooks.Admission

/-!
# The membership log of a session

Any number of hooks of one session may be enrolling it at the same time, while other
sessions create workstreams and change their status. Only the holder of the lock of the
consent record writes it.

* `ConsentStep`, `ConsentRun`: one atomic step of the hooks, and any interleaving of them.
* `consentStep_moves`: a step extends the log by the move it answers with, if any.
* `membership_history_exact`: so the log is exactly the moves the session has made.
-/

namespace Barbaro

section
variable {E : Host}

/-! ## Steps -/

/-- What the hooks of one session share. -/
structure ConsentState (E : Host) where
  /-- The records of the workstream store that a name resolves to. -/
  workstreams : List WorkstreamV1
  file : Option Bytes
  /-- The enrollments between their first decision and the lock. -/
  waiting : List Enrollment
  /-- The enrollment that holds the lock, with its decision. -/
  holder : Option (Enrollment × Proceeding E)

/-- How an enrollment ended, and the state in which it did. -/
structure Answer (E : Host) where
  before : ConsentState E
  enrollment : Enrollment
  result : Except Failure (HookSessionAdmission E)

variable (provider : ParticipatingProvider) (sessionId : JsString)

/-- A decision answers its enrollment, or lets it proceed to the state `go`. -/
def afterDecision (s : ConsentState E) (r : Enrollment) (x : Except Failure (Decision E))
    (stay : ConsentState E) (go : Proceeding E → ConsentState E) :
    List (Answer E) × ConsentState E :=
  match x with
  | .error failure => ([⟨s, r, .error failure⟩], stay)
  | .ok (.refuse admission) => ([⟨s, r, .ok admission⟩], stay)
  | .ok (.idempotent admission) => ([⟨s, r, .ok admission⟩], stay)
  | .ok (.proceed p) => ([], go p)

/-- The workstreams after the end of an enrollment. -/
def workstreamsAfter (s : ConsentState E) (fresh : WorkstreamV1) (r : Enrollment) (p : Proceeding E) :
    List WorkstreamV1 :=
  match targetWorkstream s.workstreams fresh r p with
  | .created w => w :: s.workstreams
  | _ => s.workstreams

/-- The end of an enrollment that holds the lock. -/
def afterFinish (s : ConsentState E) (fresh : WorkstreamV1) (r : Enrollment) (p : Proceeding E) :
    List (Answer E) × ConsentState E :=
  let workstreams := workstreamsAfter s fresh r p
  match finishEnrollment provider sessionId s.workstreams fresh r p with
  | .error failure => ([⟨s, r, .error failure⟩], { s with workstreams, holder := none })
  | .ok (admission, bytes) =>
    ([⟨s, r, .ok admission⟩], { s with workstreams, file := bytes.or s.file, holder := none })

/-- The consent record in a file of any size. -/
def consentRecord (E : Host) (file : Option Bytes) : Option (SessionParticipation E) :=
  file.bind (fun bytes => (parseParticipation E (bytesToString bytes) provider sessionId).toOption)

/-- The log in a file. -/
def consentLog (E : Host) (file : Option Bytes) : List (SessionWorkstreamMembership E) :=
  priorMemberships (consentRecord provider sessionId E file)

/-- A record that is created now: its id is random, so nobody has it yet, and its name is
free. -/
structure Fresh (s : ConsentState E) (w : WorkstreamV1) : Prop where
  id : ∀ v ∈ s.workstreams, v.workstreamId ≠ w.workstreamId
  unused : ∀ m ∈ consentLog provider sessionId E s.file, m.workstreamId ≠ w.workstreamId

/-- One step of the hooks of a session, with the enrollments it answers. -/
inductive ConsentStep : ConsentState E → List (Answer E) × ConsentState E → Prop
  /-- A hook decides for the first time. -/
  | start (s : ConsentState E) (r : Enrollment) :
    ConsentStep s (afterDecision s r (beginEnrollment provider sessionId s.workstreams s.file r) s
      (fun _ => { s with waiting := r :: s.waiting }))
  /-- It gets the lock and decides again. -/
  | lock (s : ConsentState E) (r : Enrollment) (hwaiting : r ∈ s.waiting) (hfree : s.holder = none) :
    ConsentStep s (afterDecision s r (decideEnrollment provider sessionId s.workstreams s.file r)
      { s with waiting := s.waiting.erase r }
      (fun p => { s with waiting := s.waiting.erase r, holder := some (r, p) }))
  /-- It creates its workstream if it has to, writes the record and releases the lock. -/
  | finish (s : ConsentState E) (r : Enrollment) (p : Proceeding E) (fresh : WorkstreamV1)
      (hheld : s.holder = some (r, p)) (hfresh : Fresh provider sessionId s fresh)
      (hname : fresh.name = r.name) :
    ConsentStep s (afterFinish provider sessionId s fresh r p)
  /-- Another session creates a workstream. -/
  | create (s : ConsentState E) (w : WorkstreamV1) (hfresh : Fresh provider sessionId s w)
      (hname : resolveName s.workstreams w.name = none) :
    ConsentStep s ([], { s with workstreams := w :: s.workstreams })
  /-- Somebody changes the status of workstreams. -/
  | setStatus (s : ConsentState E) (status : WorkstreamV1 → WorkstreamStatus) :
    ConsentStep s ([], { s with
      workstreams := s.workstreams.map (fun w => { w with status := status w }) })
  /-- Hooks die; the lock of a dead hook is broken. -/
  | die (s : ConsentState E) (waiting : List Enrollment) (hsub : waiting ⊆ s.waiting) :
    ConsentStep s ([], { s with waiting, holder := none })

/-- Any interleaving of steps, with everything they answer. -/
inductive ConsentRun : ConsentState E → List (Answer E) → ConsentState E → Prop
  | refl (s : ConsentState E) : ConsentRun s [] s
  | step {s s' s'' : ConsentState E} {answers answers' : List (Answer E)}
      (run : ConsentRun s answers s') (next : ConsentStep provider sessionId s' (answers', s'')) :
    ConsentRun s (answers ++ answers') s''

variable {provider sessionId}

theorem ConsentRun.trans {s s' s'' : ConsentState E} {answers answers' : List (Answer E)}
    (h : ConsentRun provider sessionId s answers s') (h' : ConsentRun provider sessionId s' answers' s'') :
    ConsentRun provider sessionId s (answers ++ answers') s'' := by
  induction h' with
  | refl => rwa [List.append_nil]
  | step run next ih =>
    rw [← List.append_assoc]
    exact .step ih next

/-! ## Decisions and moves -/

/-- The entry with which an enrollment has extended the log, if it has. -/
def moveOf (a : Answer E) : Option (SessionWorkstreamMembership E) :=
  match a.result with
  | .ok admission =>
    if admission.initiated then (priorMemberships admission.participation).getLast? else none
  | .error _ => none

theorem readParticipation_record {file : Option Bytes} {p : Option (SessionParticipation E)}
    (h : readParticipation E provider sessionId file = .ok p) :
    consentRecord provider sessionId E file = p := by
  cases file with
  | none => cases h; rfl
  | some bytes =>
    simp only [readParticipation, Outcome.guard_ok, Outcome.bind_ok, Outcome.pure_ok] at h
    obtain ⟨-, q, hq, rfl⟩ := h
    simp [consentRecord, hq, Except.toOption]

theorem consentRecord_ok {file : Option Bytes} {p : SessionParticipation E}
    (h : consentRecord provider sessionId E file = some p) : p.Ok provider sessionId := by
  rw [consentRecord, Option.bind_eq_some_iff] at h
  obtain ⟨bytes, -, hp⟩ := h
  exact parseParticipation_ok (Outcome.toOption_some.1 hp)

/-- The log in a file is in order, and ends in the workstream of the record. -/
theorem consentLog_ok (file : Option Bytes) :
    Increasing (consentLog provider sessionId E file) ∧
      (consentLog provider sessionId E file).getLast?.map (·.workstreamId) =
        (consentRecord provider sessionId E file).bind (·.workstreamId) := by
  rcases h : consentRecord provider sessionId E file with _ | p
  · rw [consentLog, h]
    exact ⟨List.Pairwise.nil, rfl⟩
  · rw [consentLog, h]
    exact (consentRecord_ok h).memberships

variable (provider sessionId) in
/-- What a decision says of the name it was asked for. -/
structure Decided (s : ConsentState E) (r : Enrollment) (d : Decision E) : Prop where
  /-- No decision is a move. -/
  quiet : ∀ admission, d = .refuse admission ∨ d = .idempotent admission → admission.initiated = false
  refused : ∀ admission, d = .refuse admission → admission.refused.isSome = true
  idempotent : ∀ admission, d = .idempotent admission → ∃ p w,
    consentRecord provider sessionId E s.file = some p ∧ resolveName s.workstreams r.name = some w ∧
      p.workstreamId = some w.workstreamId
  proceed : ∀ p, d = .proceed p →
    readParticipation E provider sessionId s.file = .ok p.existing ∧
      p.workstream = resolveName s.workstreams r.name ∧
      ∀ w, p.workstream = some w → some w.workstreamId ≠ p.existing.bind (·.workstreamId)

theorem Decided.of_refusal {s : ConsentState E} {r : Enrollment}
    {existing : Option (SessionParticipation E)} {reason : JsString} :
    Decided provider sessionId s r (.refuse (refusal existing reason)) := by
  refine ⟨?_, ?_, by rintro _ ⟨⟩, by rintro _ ⟨⟩⟩
  · rintro admission (⟨⟨⟩⟩ | ⟨⟨⟩⟩)
    rfl
  · rintro admission ⟨⟩
    rfl

theorem Decided.of_proceed {s : ConsentState E} {r : Enrollment} {p : Proceeding E}
    (hread : readParticipation E provider sessionId s.file = .ok p.existing)
    (hname : p.workstream = resolveName s.workstreams r.name)
    (hother : ∀ w, p.workstream = some w → some w.workstreamId ≠ p.existing.bind (·.workstreamId)) :
    Decided provider sessionId s r (.proceed p) := by
  refine ⟨by rintro _ (⟨⟨⟩⟩ | ⟨⟨⟩⟩), by rintro _ ⟨⟩, by rintro _ ⟨⟩, ?_⟩
  rintro q ⟨⟩
  exact ⟨hread, hname, hother⟩

theorem decideFirst_decided {s : ConsentState E} {r : Enrollment}
    (hread : readParticipation E provider sessionId s.file = .ok none) :
    Decided provider sessionId s r (decideFirst provider r (resolveName s.workstreams r.name)) := by
  rw [decideFirst.eq_def]
  cases r.verb with
  | join =>
    rcases hw : resolveName s.workstreams r.name with _ | w
    · exact .of_refusal
    · simp only
      split
      · exact .of_refusal
      · exact .of_proceed hread hw.symm (by simp)
  | new =>
    rcases hw : resolveName s.workstreams r.name with _ | w
    · exact .of_proceed hread hw.symm (by simp)
    · exact .of_refusal

theorem decideMove_decided {s : ConsentState E} {r : Enrollment} {existing : SessionParticipation E}
    (hread : readParticipation E provider sessionId s.file = .ok (some existing)) :
    Decided provider sessionId s r
      (decideMove provider s.workstreams r existing (resolveName s.workstreams r.name)) := by
  rw [decideMove.eq_def]
  rcases hw : resolveName s.workstreams r.name with _ | w
  · simp only
    split
    · exact .of_refusal
    · exact .of_proceed hread hw.symm (by simp)
  · simp only
    split
    · next hsame =>
      refine ⟨?_, by rintro _ ⟨⟩, ?_, by rintro _ ⟨⟩⟩
      · rintro admission (⟨⟨⟩⟩ | ⟨⟨⟩⟩)
        rfl
      · intro admission _
        exact ⟨existing, w, readParticipation_record hread, hw, hsame.symm⟩
    · next hother =>
      split
      · exact .of_refusal
      · refine .of_proceed hread hw.symm ?_
        rintro w' ⟨⟩
        exact hother

theorem decideEnrollment_decided {s : ConsentState E} {r : Enrollment} {d : Decision E}
    (h : decideEnrollment provider sessionId s.workstreams s.file r = .ok d) :
    Decided provider sessionId s r d := by
  simp only [decideEnrollment, Outcome.bind_ok] at h
  obtain ⟨existing, hread, h⟩ := h
  cases existing with
  | none =>
    obtain rfl := Outcome.pure_ok.1 h
    exact decideFirst_decided hread
  | some p =>
    obtain rfl := Outcome.pure_ok.1 h
    exact decideMove_decided hread

theorem beginEnrollment_decided {s : ConsentState E} {r : Enrollment} {d : Decision E}
    (h : beginEnrollment provider sessionId s.workstreams s.file r = .ok d) :
    Decided provider sessionId s r d := by
  rw [beginEnrollment, Outcome.guard_ok] at h
  obtain ⟨-, h⟩ := h
  split at h
  · simp only [Outcome.bind_ok, Outcome.pure_ok] at h
    obtain ⟨existing, -, rfl⟩ := h
    exact .of_refusal
  · exact decideEnrollment_decided h

/-- What a finished enrollment has done: nothing, or one entry more. -/
theorem writeMembership_ok {p : Proceeding E} {w : WorkstreamV1} {created : Bool} {joinedAt : ℤ}
    {file : Option Bytes} {admission : HookSessionAdmission E} {bytes : Bytes}
    (hread : readParticipation E provider sessionId file = .ok p.existing)
    (h : writeMembership provider sessionId p w created joinedAt = .ok (admission, bytes)) :
    ∃ m joined, m.workstreamId = w.workstreamId ∧ admission.initiated = true ∧
      admission.participation = some (scopedParticipation provider sessionId joined w.workstreamId
        (consentLog provider sessionId E file ++ [m])) ∧
      consentRecord provider sessionId E (some bytes) = admission.participation ∧
      ∀ q, consentRecord provider sessionId E file = some q → q.joinedAt = joined := by
  have hrecord := readParticipation_record hread
  have hprior : priorMemberships p.existing = consentLog provider sessionId E file := by
    rw [consentLog, hrecord]
  simp only [writeMembership, Outcome.bind_ok, Outcome.pure_ok, Prod.mk.injEq, hprior] at h
  obtain ⟨m, hm, joined, hjoined, rfl, rfl⟩ := h
  have hlog : Increasing (consentLog provider sessionId E file) := (consentLog_ok file).1
  -- the entry is after all the others
  obtain ⟨hid, hafter⟩ : m.workstreamId = w.workstreamId ∧ ∀ q,
      (consentLog provider sessionId E file).getLast? = some q → q.startMs < m.startMs := by
    rw [nextMembership] at hm
    split at hm
    · cases hm
    · next start hstart =>
      obtain ⟨hid, hstarts⟩ : m.workstreamId = w.workstreamId ∧ m.start = start := by
        cases hm
        exact ⟨rfl, rfl⟩
      obtain ⟨t, ht, -, hafter⟩ := nextMembershipFrom_after hstart
      refine ⟨hid, fun q hq => ?_⟩
      rw [SessionWorkstreamMembership.startMs_of_parse (m := m) (t := t) (by rw [hstarts, ht])]
      exact hafter q hq
  have hjoin : (E.dateParse joined).isSome = true ∧
      ∀ q, consentRecord provider sessionId E file = some q → q.joinedAt = joined := by
    rw [hrecord]
    rw [joinTime.eq_def] at hjoined
    split at hjoined
    · next q hq =>
      cases hjoined
      refine ⟨(consentRecord_ok (hrecord.trans hq)).joinedAt, fun q' hq' => ?_⟩
      rw [hq] at hq'
      cases hq'
      rfl
    · next hnone =>
      split at hjoined
      · next s hs =>
        cases hjoined
        refine ⟨by simp [(E.isoString_parse _ _ hs).1], fun q hq => ?_⟩
        rw [hnone] at hq
        cases hq
      · cases hjoined
  refine ⟨m, joined, hid, rfl, rfl, ?_, hjoin.2⟩
  have hok : (scopedParticipation provider sessionId joined w.workstreamId
      (consentLog provider sessionId E file ++ [m])).Ok provider sessionId := by
    refine ⟨rfl, rfl, hjoin.1, ?_, by rintro ⟨⟩, ?_⟩
    · rintro id ⟨⟩
      exact w.workstreamId_ok
    · rintro ms ⟨⟩
      exact ⟨increasing_append_singleton hlog hafter, by simp [scopedParticipation, hid]⟩
  rw [consentRecord, Option.bind_some, parseParticipation_written hok]
  rfl

/-! ## What the lock protects -/

variable (provider sessionId) in
/-- The workstream a session is in. -/
def currentWorkstream (E : Host) (file : Option Bytes) : Option JsString :=
  (consentRecord provider sessionId E file).bind (·.workstreamId)

theorem current_mem_log {file : Option Bytes} {id : JsString}
    (h : currentWorkstream provider sessionId E file = some id) :
    ∃ m ∈ consentLog provider sessionId E file, m.workstreamId = id := by
  have hlast := (@consentLog_ok E provider sessionId file).2
  rw [currentWorkstream] at h
  rw [h, Option.map_eq_some_iff] at hlast
  obtain ⟨m, hm, rfl⟩ := hlast
  exact ⟨m, List.mem_of_getLast? hm, rfl⟩

/-- A new workstream is not the one the session is in. -/
theorem Fresh.not_current {s : ConsentState E} {w : WorkstreamV1} (h : Fresh provider sessionId s w) :
    currentWorkstream provider sessionId E s.file ≠ some w.workstreamId := by
  intro hcurrent
  obtain ⟨m, hm, hid⟩ := current_mem_log hcurrent
  exact h.unused m hm hid

variable (provider sessionId) in
/-- What the holder of the lock knows. -/
structure Held (s : ConsentState E) (r : Enrollment) (p : Proceeding E) : Prop where
  read : readParticipation E provider sessionId s.file = .ok p.existing
  /-- The name is not that of the present workstream. -/
  other : ∀ w, resolveName s.workstreams r.name = some w →
    currentWorkstream provider sessionId E s.file ≠ some w.workstreamId
  found : ∀ w, p.workstream = some w → w.name = r.name ∧
    ∃ w', resolveName s.workstreams r.name = some w' ∧ w'.workstreamId = w.workstreamId

theorem resolveName_name {ws : List WorkstreamV1} {name : JsString} {w : WorkstreamV1}
    (h : resolveName ws name = some w) : w.name = name := by
  simpa using List.find?_some h

theorem resolveName_cons (w : WorkstreamV1) (ws : List WorkstreamV1) (name : JsString) :
    resolveName (w :: ws) name = if w.name = name then some w else resolveName ws name := by
  by_cases h : w.name = name <;> simp [resolveName, h]

theorem resolveName_map (ws : List WorkstreamV1) (status : WorkstreamV1 → WorkstreamStatus)
    (name : JsString) : resolveName (ws.map (fun w => { w with status := status w })) name =
      (resolveName ws name).map (fun w => { w with status := status w }) := by
  induction ws with
  | nil => rfl
  | cons w ws ih =>
    rw [List.map_cons, resolveName_cons, resolveName_cons, ih]
    split <;> rfl

theorem Decided.held {s : ConsentState E} {r : Enrollment} {p : Proceeding E}
    (h : Decided provider sessionId s r (.proceed p)) : Held provider sessionId s r p := by
  obtain ⟨hread, hname, hother⟩ := h.proceed p rfl
  refine ⟨hread, fun w hw hcurrent => ?_, fun w hw => ?_⟩
  · rw [currentWorkstream, readParticipation_record hread] at hcurrent
    exact hother w (hname.trans hw) hcurrent.symm
  · have hw' : resolveName s.workstreams r.name = some w := hname.symm.trans hw
    exact ⟨resolveName_name hw', w, hw', rfl⟩

/-- What the holder knows does not depend on who waits. -/
theorem Held.congr {s s' : ConsentState E} {r : Enrollment} {p : Proceeding E}
    (h : Held provider sessionId s r p) (hfile : s'.file = s.file)
    (hws : s'.workstreams = s.workstreams) : Held provider sessionId s' r p := by
  obtain ⟨h1, h2, h3⟩ := h
  refine ⟨?_, ?_, ?_⟩
  · rwa [hfile]
  · rwa [hws, hfile]
  · rwa [hws]

/-- A workstream that somebody creates does not change what the holder knows. -/
theorem Held.create {s : ConsentState E} {r : Enrollment} {p : Proceeding E}
    (h : Held provider sessionId s r p) {w : WorkstreamV1} (hfresh : Fresh provider sessionId s w)
    (hname : resolveName s.workstreams w.name = none) :
    Held provider sessionId { s with workstreams := w :: s.workstreams } r p := by
  refine ⟨h.read, fun v hv => ?_, fun v hv => ?_⟩
  · simp only [resolveName_cons] at hv
    split at hv
    · cases hv
      exact hfresh.not_current
    · exact h.other v hv
  · obtain ⟨hvname, v', hv', hid⟩ := h.found v hv
    have hne : w.name ≠ r.name := by
      intro he
      rw [he, hv'] at hname
      cases hname
    exact ⟨hvname, v', by rw [resolveName_cons, if_neg hne, hv'], hid⟩

theorem Held.setStatus {s : ConsentState E} {r : Enrollment} {p : Proceeding E}
    (h : Held provider sessionId s r p) (status : WorkstreamV1 → WorkstreamStatus) :
    Held provider sessionId { s with
      workstreams := s.workstreams.map (fun w => { w with status := status w }) } r p := by
  refine ⟨h.read, fun v hv => ?_, fun v hv => ?_⟩
  · simp only [resolveName_map, Option.map_eq_some_iff] at hv
    obtain ⟨v', hv', rfl⟩ := hv
    exact h.other v' hv'
  · obtain ⟨hvname, v', hv', hid⟩ := h.found v hv
    exact ⟨hvname, { v' with status := status v' }, by rw [resolveName_map, hv']; rfl, hid⟩

/-! ## One step -/

variable (provider sessionId) in
/-- How an enrollment may end. -/
structure AnswerOk (a : Answer E) : Prop where
  /-- A move leads to the workstream that was named, and away from the present one. -/
  moved : ∀ m, moveOf a = some m →
    currentWorkstream provider sessionId E a.before.file ≠ some m.workstreamId ∧
      ∃ w : WorkstreamV1, w.name = a.enrollment.name ∧ w.workstreamId = m.workstreamId
  /-- Re-admission to the present workstream is no move. -/
  repeated : ∀ w, resolveName a.before.workstreams a.enrollment.name = some w →
    currentWorkstream provider sessionId E a.before.file = some w.workstreamId → moveOf a = none
  /-- An enrollment that was neither refused nor such a re-admission is a move. -/
  kept : ∀ admission, a.result = .ok admission → moveOf a = none →
    admission.refused.isSome = true ∨ ∃ w, resolveName a.before.workstreams a.enrollment.name = some w ∧
      currentWorkstream provider sessionId E a.before.file = some w.workstreamId

variable (provider sessionId) in
/-- What a step keeps, and what it answers. -/
structure StepOk (s : ConsentState E) (answers : List (Answer E)) (s' : ConsentState E) : Prop where
  held : ∀ r p, s'.holder = some (r, p) → Held provider sessionId s' r p
  log : consentLog provider sessionId E s'.file =
    consentLog provider sessionId E s.file ++ answers.filterMap moveOf
  joined : ∀ p, consentRecord provider sessionId E s.file = some p →
    ∃ p', consentRecord provider sessionId E s'.file = some p' ∧ p'.joinedAt = p.joinedAt
  answers : ∀ a ∈ answers, AnswerOk provider sessionId a

/-- A step that leaves the file alone and answers without a move. -/
theorem StepOk.quiet {s s' : ConsentState E} {answers : List (Answer E)} (hfile : s'.file = s.file)
    (hheld : ∀ r p, s'.holder = some (r, p) → Held provider sessionId s' r p)
    (hmoves : ∀ a ∈ answers, moveOf a = none ∧ AnswerOk provider sessionId a) :
    StepOk provider sessionId s answers s' := by
  have hnone : answers.filterMap moveOf = [] :=
    List.filterMap_eq_nil_iff.2 fun a ha => (hmoves a ha).1
  refine ⟨hheld, ?_, fun p hp => ⟨p, ?_, rfl⟩, fun a ha => (hmoves a ha).2⟩
  · rw [hfile, hnone, List.append_nil]
  · rw [hfile, hp]

theorem quiet_answer {a : Answer E} (hmove : moveOf a = none)
    (hkept : ∀ admission, a.result = .ok admission → admission.refused.isSome = true ∨
      ∃ w, resolveName a.before.workstreams a.enrollment.name = some w ∧
        currentWorkstream provider sessionId E a.before.file = some w.workstreamId) :
    moveOf a = none ∧ AnswerOk provider sessionId a := by
  refine ⟨hmove, fun m hm => ?_, fun _ _ _ => hmove, fun admission ha _ => hkept admission ha⟩
  rw [hmove] at hm
  cases hm

/-- A step that decides. -/
theorem afterDecision_ok {s stay : ConsentState E} {go : Proceeding E → ConsentState E}
    {r : Enrollment} {x : Except Failure (Decision E)}
    (hx : ∀ d, x = .ok d → Decided provider sessionId s r d)
    (hstay : stay.file = s.file) (hgo : ∀ p, (go p).file = s.file)
    (hheld : ∀ r' p, stay.holder = some (r', p) → Held provider sessionId stay r' p)
    (hproceed : ∀ p, Held provider sessionId s r p →
      ∀ r' p', (go p).holder = some (r', p') → Held provider sessionId (go p) r' p') :
    StepOk provider sessionId s (afterDecision s r x stay go).1 (afterDecision s r x stay go).2 := by
  rcases x with failure | d
  · refine .quiet hstay hheld fun a ha => ?_
    obtain rfl := List.mem_singleton.1 ha
    exact quiet_answer rfl (by rintro _ ⟨⟩)
  · have hd := hx d rfl
    cases d with
    | refuse admission =>
      refine .quiet hstay hheld fun a ha => ?_
      obtain rfl := List.mem_singleton.1 ha
      refine quiet_answer (by simp [moveOf, hd.quiet admission (.inl rfl)]) ?_
      rintro _ ⟨⟩
      exact .inl (hd.refused admission rfl)
    | idempotent admission =>
      refine .quiet hstay hheld fun a ha => ?_
      obtain rfl := List.mem_singleton.1 ha
      refine quiet_answer (by simp [moveOf, hd.quiet admission (.inr rfl)]) ?_
      rintro _ ⟨⟩
      obtain ⟨p, w, hp, hw, hid⟩ := hd.idempotent admission rfl
      exact .inr ⟨w, hw, by simp [currentWorkstream, hp, hid]⟩
    | proceed p =>
      exact .quiet (hgo p) (hproceed p hd.held) (by simp [afterDecision])

/-- The record and the log after a move. -/
theorem moved_record {r : Enrollment} {p : Proceeding E} {s : ConsentState E}
    {w : WorkstreamV1} {created : Bool} {joinedAt : ℤ} {admission : HookSessionAdmission E}
    {bytes : Bytes} (hheld : Held provider sessionId s r p)
    (h : writeMembership provider sessionId p w created joinedAt = .ok (admission, bytes)) :
    ∃ m, m.workstreamId = w.workstreamId ∧ moveOf ⟨s, r, .ok admission⟩ = some m ∧
      consentLog provider sessionId E (some bytes) = consentLog provider sessionId E s.file ++ [m] ∧
      ∀ q, consentRecord provider sessionId E s.file = some q →
        ∃ q', consentRecord provider sessionId E (some bytes) = some q' ∧ q'.joinedAt = q.joinedAt := by
  obtain ⟨m, joined, hid, hinitiated, hparticipation, hrecord, hjoined⟩ :=
    writeMembership_ok hheld.read h
  have hlog : priorMemberships admission.participation =
      consentLog provider sessionId E s.file ++ [m] := by
    rw [hparticipation]
    rfl
  refine ⟨m, hid, ?_, ?_, fun q hq => ?_⟩
  · simp [moveOf, hinitiated, hlog]
  · rw [consentLog, hrecord, hlog]
  · exact ⟨_, hrecord.trans hparticipation, (hjoined q hq).symm⟩

/-- A move to a workstream that is not the present one. -/
theorem moved_ok {r : Enrollment} {p : Proceeding E} {s s' : ConsentState E}
    {w : WorkstreamV1} {created : Bool} {joinedAt : ℤ} {admission : HookSessionAdmission E}
    {bytes : Bytes} (hheld : Held provider sessionId s r p)
    (h : writeMembership provider sessionId p w created joinedAt = .ok (admission, bytes))
    (hfile : s'.file = some bytes) (hfree : s'.holder = none) (hname : w.name = r.name)
    (hother : currentWorkstream provider sessionId E s.file ≠ some w.workstreamId) :
    StepOk provider sessionId s [⟨s, r, .ok admission⟩] s' := by
  obtain ⟨m, hid, hmove, hlog, hjoined⟩ := moved_record hheld h
  refine ⟨?_, ?_, ?_, ?_⟩
  · intro r' p' hr
    rw [hfree] at hr
    cases hr
  · rw [hfile, hlog, List.filterMap_cons, hmove]
    rfl
  · rw [hfile]
    exact hjoined
  · intro a ha
    obtain rfl := List.mem_singleton.1 ha
    refine ⟨fun m' hm' => ?_, fun v hv hcurrent => ?_, fun _ _ hnone => ?_⟩
    · rw [hmove] at hm'
      cases hm'
      rw [hid]
      exact ⟨hother, w, hname, rfl⟩
    · exact absurd hcurrent (hheld.other v hv)
    · rw [hmove] at hnone
      cases hnone

/-- The target of a proceeding enrollment is not the present workstream. -/
theorem target_ok {s : ConsentState E} {r : Enrollment} {p : Proceeding E} {fresh w : WorkstreamV1}
    (hheld : Held provider sessionId s r p) (hfresh : Fresh provider sessionId s fresh)
    (hname : fresh.name = r.name)
    (h : targetWorkstream s.workstreams fresh r p = .found w ∨
      targetWorkstream s.workstreams fresh r p = .created w) :
    w.name = r.name ∧ currentWorkstream provider sessionId E s.file ≠ some w.workstreamId := by
  rw [targetWorkstream] at h
  split at h
  · next v hv =>
    obtain ⟨hvname, v', hv', hid⟩ := hheld.found v hv
    have hother := hheld.other v' hv'
    rw [hid] at hother
    rcases h with h | h
    · cases h
      exact ⟨hvname, hother⟩
    · cases h
  · split at h
    · next v hv =>
      split at h
      · rcases h with h | h
        · cases h
          exact ⟨resolveName_name hv, hheld.other _ hv⟩
        · cases h
      · rcases h with h | h <;> cases h
    · rcases h with h | h
      · cases h
      · cases h
        exact ⟨hname, hfresh.not_current⟩

/-- The step that writes. -/
theorem afterFinish_ok {s : ConsentState E} {r : Enrollment} {p : Proceeding E} {fresh : WorkstreamV1}
    (hheld : Held provider sessionId s r p) (hfresh : Fresh provider sessionId s fresh)
    (hname : fresh.name = r.name) :
    StepOk provider sessionId s (afterFinish provider sessionId s fresh r p).1
      (afterFinish provider sessionId s fresh r p).2 := by
  have hfree : ∀ s' : ConsentState E, s'.holder = none →
      ∀ r' p', s'.holder = some (r', p') → Held provider sessionId s' r' p' := by
    intro s' hs' r' p' hr
    rw [hs'] at hr
    cases hr
  rw [afterFinish]
  rcases hx : finishEnrollment provider sessionId s.workstreams fresh r p with failure | ⟨admission, bytes⟩
  · refine .quiet rfl (hfree _ rfl) fun a ha => ?_
    obtain rfl := List.mem_singleton.1 ha
    exact quiet_answer rfl (by rintro _ ⟨⟩)
  · rw [finishEnrollment.eq_def] at hx
    split at hx
    · cases hx
    · split at hx
      · -- the name was taken meanwhile, and the session may not move there
        cases hx
        refine .quiet rfl (hfree _ rfl) fun a ha => ?_
        obtain rfl := List.mem_singleton.1 ha
        refine quiet_answer rfl ?_
        rintro _ ⟨⟩
        exact .inl rfl
      · next w hw =>
        simp only [Outcome.bind_ok, Outcome.pure_ok, Prod.mk.injEq] at hx
        obtain ⟨⟨_, b⟩, hwrite, rfl, rfl⟩ := hx
        obtain ⟨hwname, hother⟩ := target_ok hheld hfresh hname (.inl hw)
        exact moved_ok hheld hwrite rfl rfl hwname hother
      · next w hw =>
        simp only [Outcome.bind_ok, Outcome.pure_ok, Prod.mk.injEq] at hx
        obtain ⟨⟨_, b⟩, hwrite, rfl, rfl⟩ := hx
        obtain ⟨hwname, hother⟩ := target_ok hheld hfresh hname (.inr hw)
        exact moved_ok hheld hwrite rfl rfl hwname hother

/-- **A step extends the log by the move it answers with**, and by nothing else. -/
theorem consentStep_ok {s s' : ConsentState E} {answers : List (Answer E)}
    (hinv : ∀ r p, s.holder = some (r, p) → Held provider sessionId s r p)
    (h : ConsentStep provider sessionId s (answers, s')) : StepOk provider sessionId s answers s' := by
  generalize hx : (answers, s') = x at h
  cases h with
  | start r =>
    obtain ⟨rfl, rfl⟩ := Prod.mk.inj hx
    refine afterDecision_ok (fun d hd => beginEnrollment_decided hd) rfl (fun _ => rfl) hinv ?_
    exact fun p _ r' p' hr => (hinv r' p' hr).congr rfl rfl
  | lock r hwaiting hfree =>
    obtain ⟨rfl, rfl⟩ := Prod.mk.inj hx
    refine afterDecision_ok (fun d hd => decideEnrollment_decided hd) rfl (fun _ => rfl) ?_ ?_
    · exact fun r' p' hr => (hinv r' p' hr).congr rfl rfl
    · rintro p hp r' p' ⟨⟩
      exact hp.congr rfl rfl
  | finish r p fresh hheld hfresh hname =>
    obtain ⟨rfl, rfl⟩ := Prod.mk.inj hx
    exact afterFinish_ok (hinv r p hheld) hfresh hname
  | create w hfresh hname =>
    obtain ⟨rfl, rfl⟩ := Prod.mk.inj hx
    exact .quiet rfl (fun r p hr => (hinv r p hr).create hfresh hname) (by simp)
  | setStatus status =>
    obtain ⟨rfl, rfl⟩ := Prod.mk.inj hx
    exact .quiet rfl (fun r p hr => (hinv r p hr).setStatus status) (by simp)
  | die waiting hsub =>
    obtain ⟨rfl, rfl⟩ := Prod.mk.inj hx
    exact .quiet rfl (by rintro r p ⟨⟩) (by simp)

/-! ## Any interleaving -/

/-- No hook is at work. -/
def ConsentState.idle (workstreams : List WorkstreamV1) (file : Option Bytes) : ConsentState E where
  workstreams := workstreams
  file := file
  waiting := []
  holder := none

/-- What a run keeps, and what it answers. -/
theorem consentRun_ok {s s' : ConsentState E} {answers : List (Answer E)}
    (hinv : ∀ r p, s.holder = some (r, p) → Held provider sessionId s r p)
    (h : ConsentRun provider sessionId s answers s') : StepOk provider sessionId s answers s' := by
  induction h with
  | refl => exact .quiet rfl hinv (by simp)
  | step run next ih =>
    have hrun := ih
    have hstep := consentStep_ok hrun.held next
    refine ⟨hstep.held, ?_, fun p hp => ?_, fun a ha => ?_⟩
    · rw [hstep.log, hrun.log, List.filterMap_append, List.append_assoc]
    · obtain ⟨q, hq, hpq⟩ := hrun.joined p hp
      obtain ⟨q', hq', hqq'⟩ := hstep.joined q hq
      exact ⟨q', hq', hqq'.trans hpq⟩
    · rcases List.mem_append.1 ha with ha | ha
      · exact hrun.answers a ha
      · exact hstep.answers a ha

end

/-! ## A first enrollment -/

/-- The epoch, as a date. -/
def epochText : JsString := js "1970-01-01T00:00:00.000Z"

def epochHost : Host := Host.ofTables [] [(0, epochText)] (by decide)

def firstSession : JsString := js "ses_" ++ hexText 32 1

def firstWorkstream : WorkstreamV1 := ⟨js "ws_" ++ hexText 32 2, js "a", .open, by decide⟩

def firstEnrollment : Enrollment := ⟨.new, js "a", some 0⟩

/-- The lock is held, and the name is free. -/
def firstHeld : ConsentState epochHost where
  workstreams := []
  file := none
  waiting := []
  holder := some (firstEnrollment, ⟨none, none, none⟩)

/-- The session has its record. -/
def firstJoined : List (Answer epochHost) × ConsentState epochHost :=
  afterFinish .claude firstSession firstHeld firstWorkstream firstEnrollment ⟨none, none, none⟩

theorem firstRun : ConsentRun .claude firstSession (.idle [] none) firstJoined.1 firstJoined.2 := by
  have hstart : ConsentRun .claude firstSession (.idle (E := epochHost) [] none) ([] ++ [])
      { firstHeld with waiting := [firstEnrollment], holder := none } :=
    .step (.refl _) (.start _ firstEnrollment)
  have hlock : ConsentRun .claude firstSession (.idle (E := epochHost) [] none) ([] ++ [] ++ [])
      firstHeld :=
    .step hstart (.lock _ firstEnrollment (by decide) rfl)
  have hfinish : ConsentStep .claude firstSession firstHeld (firstJoined.1, firstJoined.2) := by
    have hfresh : Fresh .claude firstSession firstHeld firstWorkstream :=
      ⟨by rintro v ⟨⟩, by rintro m ⟨⟩⟩
    exact .finish firstHeld firstEnrollment ⟨none, none, none⟩ firstWorkstream rfl hfresh rfl
  have hrun : ConsentRun .claude firstSession (.idle (E := epochHost) [] none)
      ([] ++ [] ++ [] ++ firstJoined.1) firstJoined.2 := .step hlock hfinish
  exact hrun

end Barbaro
