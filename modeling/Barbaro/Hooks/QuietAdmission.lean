import Barbaro.Hooks.AdmissionFiles
import Barbaro.Hooks.MembershipHistory

/-!
# Admissions that write nothing

An admission writes only after every point at which it may be refused: it creates its
workstream last, and extends the record right after. So whatever else works on the files
meanwhile, an admission that is refused, that names no workstream or that repeats the
present membership has left them alone.

* `Reads`: a process that only reads.
* `admit_quiet`: an admission that has written ends as a move, or in an exception.
* `quiet_admission_untouched`: the files are what the others have made of them.
-/

namespace Barbaro.Hooks

open Workstreams

variable {E : Host} {R : (o : FileOp) → o.Ret → Prop} {α β : Type}

/-! ## Processes that only read -/

/-- No file has been written. -/
def Silent (done : List FileOp) : Prop := ∀ o ∈ done, o.writes = false

theorem Silent.append {done : List FileOp} (h : Silent done) {o : FileOp} (ho : o.writes = false) :
    Silent (done ++ [o]) := by
  intro o' ho'
  rcases List.mem_append.1 ho' with ho' | ho'
  · exact h o' ho'
  · rw [List.mem_singleton.1 ho']
    exact ho

/-- What the rest of a process needs of a result, or of an exception. -/
theorem always_hook_bind {Q : List FileOp → Except WorkstreamFailure β → Prop} {done : List FileOp}
    {x : Hook α} {f : α → Hook β}
    (h : Process.Always R (fun done r => (∀ a, r = .ok a → Process.Always R Q done (f a).run) ∧
      ∀ failure, r = .error failure → Q done (.error failure)) done x.run) :
    Process.Always R Q done (x >>= f).run := by
  rw [run_bind, Process.always_bind]
  refine h.mono ?_
  rintro done (failure | a) ⟨hok, herror⟩
  · exact herror failure rfl
  · exact hok a rfl

/-- A process that writes nothing, whatever it reads. -/
def Reads (h : Hook α) : Prop :=
  ∀ R : (o : FileOp) → o.Ret → Prop, Process.Performs R (fun o => o.writes = false) h.run

theorem Reads.always {h : Hook α} (hreads : Reads h) {done : List FileOp} (hdone : Silent done) :
    Process.Always R (fun done _ => Silent done) done h.run :=
  (hreads R).always hdone

/-- What follows a process that only reads starts where nothing is written. -/
theorem Reads.andThen {x : Hook α} (h : Reads x) {f : α → Hook β}
    {Q : List FileOp → Except WorkstreamFailure β → Prop} {done : List FileOp} (hdone : Silent done)
    (hf : ∀ done a, Silent done → Process.Always R Q done (f a).run)
    (hQ : ∀ done failure, Silent done → Q done (.error failure)) :
    Process.Always R Q done (x >>= f).run :=
  always_hook_bind ((h.always hdone).mono fun done _ hsilent =>
    ⟨fun a _ => hf done a hsilent, fun failure _ => hQ done failure hsilent⟩)

/-- A process that only reads, and then what only reads after its result. -/
theorem performs_hook_bind {x : Hook α} {f : α → Hook β} (hx : Reads x) {done : List FileOp}
    (hf : Process.Always R (fun _ r => ∀ a, r = .ok a →
      Process.Performs R (fun o => o.writes = false) (f a).run) done x.run) :
    Process.Performs R (fun o => o.writes = false) (x >>= f).run := by
  rw [run_bind]
  refine (hx R).bind (hf.mono ?_)
  rintro done (failure | a) h
  · exact trivial
  · exact h a rfl

theorem Reads.bind {x : Hook α} {f : α → Hook β} (hx : Reads x) (hf : ∀ a, Reads (f a)) :
    Reads (x >>= f) := by
  intro R
  have hsilent : Silent [] := by rintro o ⟨⟩
  exact performs_hook_bind hx ((hx.always hsilent).mono fun _ _ _ a _ => hf a R)

theorem Reads.pure (a : α) : Reads (Pure.pure a : Hook α) := fun _ => trivial

theorem Reads.ofExcept (x : Except WorkstreamFailure α) : Reads (ofExcept x) := fun _ => trivial

theorem Reads.perform {o : FileOp} (ho : o.writes = false) : Reads (perform o) :=
  fun _ => ⟨ho, fun _ _ => trivial⟩

theorem always_attempt {Q : List FileOp → Except WorkstreamFailure (Except WorkstreamFailure α) → Prop}
    {done : List FileOp} {h : Hook α}
    (hQ : Process.Always R (fun done r => Q done (.ok r)) done h.run) :
    Process.Always R Q done (attempt h).run := by
  have hbind := @Process.always_bind FileOp FileOp.Ret _ _ R Q done h.run (fun r => .ret (.ok r))
  exact hbind.2 (hQ.mono fun _ _ h => h)

theorem Reads.attempt {h : Hook α} (hx : Reads h) : Reads (attempt h) := by
  intro R
  have hsilent : Silent [] := by rintro o ⟨⟩
  exact @Process.Performs.bind _ _ _ _ R _ h.run (hx R) (fun r => .ret (Except.ok r)) []
    ((hx.always hsilent).mono fun _ _ _ => trivial)

theorem get_reads (id : JsString) : Reads (get E id) := by
  unfold get
  split
  · exact .ofExcept _
  · refine .bind (.perform rfl) fun file => .bind (.ofExcept _) fun text => ?_
    cases text with
    | none => exact .pure _
    | some text => exact .bind (.ofExcept _) fun record => .pure _

theorem resolveName_reads (name : JsString) : Reads (resolveName E name) := by
  refine .bind (.perform rfl) fun file => .bind (.ofExcept _) fun claimText => ?_
  cases claimText with
  | none => exact .pure _
  | some claimText =>
    simp only
    cases claimedId E claimText with
    | none => exact .pure _
    | some id =>
      refine .bind (get_reads id).attempt fun result => ?_
      rcases result with _ | _ | record
      · exact .pure _
      · exact .pure _
      · exact .pure _

theorem resolve_reads (reference : JsString) : Reads (resolve E reference) := by
  unfold resolve
  split
  · exact get_reads reference
  · split
    · exact .pure _
    · exact resolveName_reads reference

theorem readRecords_reads (ids : List JsString) : Reads (readRecords E ids) := by
  induction ids with
  | nil => exact .pure _
  | cons id ids ih =>
    refine .bind (get_reads id).attempt fun result => .bind ih fun records => ?_
    rcases result with _ | _ | record
    · exact .pure _
    · exact .pure _
    · exact .pure _

variable (provider : ParticipatingProvider) (sessionId : JsString)

theorem readComponents_reads : Reads (readComponents E provider sessionId) :=
  .bind (.perform rfl) fun _ => .ofExcept _

theorem decide_reads (r : Enrollment) : Reads (decide E provider sessionId r) := by
  refine .bind (readComponents_reads provider sessionId) fun existing =>
    .bind (resolve_reads r.name) fun resolved => ?_
  cases existing with
  | none => exact .pure _
  | some p =>
    simp only
    cases decideMove provider [] r p (resolved.bind workstreamOf) with
    | refuse admission => exact .pure _
    | idempotent admission => exact .pure _
    | proceed q =>
      simp only
      cases p.workstreamId with
      | none => exact .pure _
      | some id => exact .bind (get_reads id) fun previous => .pure _

theorem describe_reads : Reads (describe E provider sessionId) := by
  refine .bind (readComponents_reads provider sessionId) fun existing => ?_
  cases existing with
  | none =>
    refine .bind (.bind (.perform rfl) fun ids => .bind (readRecords_reads ids) fun records => .pure _)
      fun records => .pure _
  | some p =>
    refine .bind ?_ fun message => .pure _
    unfold describeMembership
    cases p.workstreamId with
    | none => exact .pure _
    | some id =>
      refine .bind (get_reads id) fun record => ?_
      cases record.bind workstreamOf with
      | none => exact .pure _
      | some w => exact .pure _

/-! ## What an admission has written at its end -/

/-- Taking and releasing a lock writes nothing. -/
theorem always_locked {Q : List FileOp → Except WorkstreamFailure α → Prop} {done : List FileOp}
    {target : LockTarget} {h : Hook α} (hQ : ∀ done r, Q done r → Q (done ++ [.unlock target]) r)
    (hrun : Process.Always R Q (done ++ [.lock target]) h.run) :
    Process.Always R Q done (withDirectoryLock target h).run := by
  have hlocked : (withDirectoryLock target h).run = (perform (.lock target) >>= fun _ =>
      attempt h >>= fun result => perform (.unlock target) >>= fun _ => ofExcept result : Hook α).run := rfl
  rw [hlocked]
  refine always_hook_bind fun _ _ => ⟨fun _ _ => ?_, by rintro _ ⟨⟩⟩
  refine always_hook_bind (always_attempt (hrun.mono fun done' r hr => ⟨?_, by rintro _ ⟨⟩⟩))
  rintro _ ⟨⟩
  refine always_hook_bind fun _ _ => ⟨fun _ _ => ?_, by rintro _ ⟨⟩⟩
  exact hQ done' r hr

/-- **A creation that fails has written nothing.** -/
theorem create_failed (options : CreateWorkstreamOptions) {done : List FileOp} (hdone : Silent done) :
    Process.Always R (fun done r => ∀ failure, r = .error failure → Silent done) done
      (create E options).run := by
  refine (Reads.ofExcept _).andThen hdone (fun done _ hdone => ?_) fun done _ hdone _ _ => hdone
  refine always_locked (fun done r hr failure hf => (hr failure hf).append rfl) ?_
  refine (resolveName_reads options.name).andThen (hdone.append rfl) (fun done existing hdone => ?_)
    fun done _ hdone _ _ => hdone
  cases existing with
  | some existing => exact fun _ _ => hdone
  | none =>
    refine (Reads.perform rfl).andThen hdone (fun done random hdone => ?_) fun done _ hdone _ _ => hdone
    refine (Reads.ofExcept _).andThen hdone (fun done c _ => ?_) fun done _ hdone _ _ => hdone
    -- from here on nothing is thrown
    have hwrites : ∀ (ws : List Write) (done : List FileOp),
        Process.Always R (fun _ r => r = .ok ()) done (performWrites ws).run := by
      intro ws
      induction ws with
      | nil => exact fun done => rfl
      | cons w ws ih =>
        intro done
        exact @always_hook_bind R _ _ _ done (perform (.writeStore w)) (fun _ => performWrites ws)
          fun _ _ => ⟨fun _ _ => ih _, by rintro _ ⟨⟩⟩
    refine always_hook_bind ((hwrites c.writes done).mono ?_)
    rintro done _ rfl
    exact ⟨fun _ _ => by rintro _ ⟨⟩, by rintro _ ⟨⟩⟩

/-- Where an admission ends refused, or without a move, nothing was written. -/
def QuietEnd (done : List FileOp) (result : Except WorkstreamFailure (HookSessionAdmission E)) : Prop :=
  ∀ admission, result = .ok admission →
    admission.refused.isSome = true ∨ admission.initiated = false → Silent done

theorem QuietEnd.of_silent {done : List FileOp} (h : Silent done)
    (result : Except WorkstreamFailure (HookSessionAdmission E)) : QuietEnd done result :=
  fun _ _ _ => h

theorem QuietEnd.error (done : List FileOp) (failure : WorkstreamFailure) :
    QuietEnd done (.error failure : Except _ (HookSessionAdmission E)) := by
  rintro _ ⟨⟩

/-- Who writes the record has moved. -/
theorem writeMove_end (p : Proceeding E) (w : WorkstreamV1) (created : Bool) (joinedAt : ℤ)
    (done : List FileOp) :
    Process.Always R QuietEnd done (writeMove E provider sessionId p w created joinedAt).run := by
  refine always_hook_bind ⟨fun written hwritten => ?_, fun _ _ => QuietEnd.error _ _⟩
  obtain ⟨admission, bytes⟩ := written
  have hmoved : admission.initiated = true ∧ admission.refused = none := by
    rcases hw : writeMembership provider sessionId p w created joinedAt with failure | written
    · rw [hw] at hwritten
      cases hwritten
    · rw [hw] at hwritten
      cases hwritten
      simp only [writeMembership, Outcome.bind_ok, Outcome.pure_ok, Prod.mk.injEq] at hw
      obtain ⟨m, -, joined, -, rfl, rfl⟩ := hw
      exact ⟨rfl, rfl⟩
  refine @always_hook_bind R _ _ _ done (perform (.writeConsent provider sessionId bytes))
    (fun _ => pure admission) fun _ _ => ⟨fun _ _ => ?_, by rintro _ ⟨⟩⟩
  rintro _ ⟨⟩ (h | h)
  · rw [hmoved.2] at h
    cases h
  · rw [hmoved.1] at h
    cases h

theorem enrollLocked_end (r : Enrollment) (joinedAt : ℤ) {done : List FileOp} (hdone : Silent done) :
    Process.Always R QuietEnd done (enrollLocked E provider sessionId r joinedAt).run := by
  refine (decide_reads provider sessionId r).andThen hdone (fun done decision hdone => ?_)
    fun _ _ _ => QuietEnd.error _ _
  cases decision with
  | refuse admission => exact QuietEnd.of_silent hdone _
  | idempotent admission => exact QuietEnd.of_silent hdone _
  | proceed p =>
    simp only
    cases p.workstream with
    | some w => exact writeMove_end provider sessionId p w false joinedAt done
    | none =>
      refine always_hook_bind (always_attempt ((create_failed _ hdone).mono ?_))
      refine fun done result hfailed => ⟨?_, by rintro _ ⟨⟩⟩
      rintro _ ⟨⟩
      rcases result with failure | c
      · have hdone := hfailed failure rfl
        cases failure with
        | nameTaken existing =>
          simp only
          cases workstreamOf existing with
          | none => exact QuietEnd.error _ _
          | some w =>
            simp only
            split
            · exact writeMove_end provider sessionId p w false joinedAt done
            · exact QuietEnd.of_silent hdone _
        | failure f => exact QuietEnd.error _ _
        | notFound reference => exact QuietEnd.error _ _
        | invalidName requested => exact QuietEnd.error _ _
      · simp only
        cases createdWorkstream c with
        | none => exact QuietEnd.error _ _
        | some w => exact writeMove_end provider sessionId p w true joinedAt done

theorem enroll_end (r : Enrollment) {done : List FileOp} (hdone : Silent done) :
    Process.Always R QuietEnd done (enroll E provider sessionId r).run := by
  unfold enroll
  cases r.now with
  | none => exact QuietEnd.error _ _
  | some joinedAt =>
    simp only
    split
    · refine (readComponents_reads provider sessionId).andThen hdone (fun done existing hdone => ?_)
        fun _ _ _ => QuietEnd.error _ _
      exact QuietEnd.of_silent hdone _
    · refine (decide_reads provider sessionId r).andThen hdone (fun done decision hdone => ?_)
        fun _ _ _ => QuietEnd.error _ _
      cases decision with
      | refuse admission => exact QuietEnd.of_silent hdone _
      | idempotent admission => exact QuietEnd.of_silent hdone _
      | proceed p =>
        refine always_locked (fun done r hr admission ha hquiet => (hr admission ha hquiet).append rfl) ?_
        exact enrollLocked_end provider sessionId r joinedAt (hdone.append rfl)

/-! ## Asking for the present workstream -/

variable (E) in
/-- The session is in the workstream of a name. -/
structure Belongs (name id : JsString) (files : AdmissionFiles) : Prop where
  consent : ∃ p, readParticipation E provider sessionId (files.consents provider sessionId) = .ok (some p) ∧
    p.workstreamId = some id
  claim : ∃ text, readUtf8File (claimPath name) maxClaimBytes (files.store.claims name) = .ok (some text) ∧
    claimedId E text = some id
  record : ∃ record, Workstreams.get E files.store id = .ok (some record) ∧ textAt? "name" record = some name

variable (E) in
/-- An answer of the files while the session is in the workstream of a name. -/
def AnswersBelonging (name id : JsString) (o : FileOp) (answer : o.Ret) : Prop :=
  ∃ files, Belongs E provider sessionId name id files ∧ o.Answers files answer

/-- No name has the form of an id: a name has no underscore. -/
theorem not_id_of_name {s : JsString} (h : isWorkstreamName s = true) : isWorkstreamId s = false := by
  by_contra hid
  rw [Bool.not_eq_false] at hid
  obtain ⟨digits, rfl, -, -⟩ := isId_cut hid
  simp only [isWorkstreamName, Bool.and_eq_true, List.all_eq_true] at h
  have hunit := h.1.1.2 95 (by simp)
  exact absurd hunit (by decide)

theorem claimedId_ok {text id : JsString} (h : claimedId E text = some id) : isWorkstreamId id = true := by
  unfold claimedId at h
  split at h
  · exact (Option.filter_eq_some_iff.1 h).2
  · cases h

/-- The record of an id is a workstream of that id. -/
theorem get_workstream {files : StoreFiles} {id : JsString} {record : Json}
    (h : Workstreams.get E files id = .ok (some record)) :
    ∃ w, workstreamOf record = some w ∧ w.workstreamId = id := by
  unfold Workstreams.get at h
  split at h
  · cases h
  · rcases hread : readUtf8File (recordPath id) Workstreams.maxRecordBytes (files.records id) with failure | _ | text
    · rw [hread] at h
      cases h
    · rw [hread] at h
      cases h
    · rw [hread, Outcome.ok_bind] at h
      simp only [Outcome.bind_ok, Outcome.pure_ok, Option.some.injEq] at h
      obtain ⟨value, hparse, rfl⟩ := h
      obtain ⟨w, hw⟩ := Option.isSome_iff_exists.1 (workstreamOf_isSome hparse)
      refine ⟨w, hw, ?_⟩
      have hid : textAt "workstream_id" value = id := by
        unfold parseWorkstream at hparse
        split at hparse
        · cases hparse
        · simp only [Outcome.guard_ok, Bool.not_eq_true', Bool.not_eq_false] at hparse
          obtain ⟨-, -, hvalid, hparse⟩ := hparse
          cases hparse
          simp only [isWorkstream, Bool.and_eq_true, Option.all_some] at hvalid
          have hequal := hvalid.1.1.1.1.1.1.1.2
          unfold equalsText at hequal
          unfold textAt
          split at hequal
          · next s hs => simpa [hs] using hequal
          · cases hequal
      rw [workstreamOf] at hw
      split at hw
      · cases hw
        exact hid
      · cases hw

/-- The name leads to the workstream the session is in. -/
theorem resolve_belonging {name id : JsString} (hname : isWorkstreamName name = true) (done : List FileOp) :
    Process.Always (AnswersBelonging E provider sessionId name id)
      (fun _ result => ∃ record w, result = .ok (some record) ∧ workstreamOf record = some w ∧
        w.workstreamId = id) done (resolve E name).run := by
  rw [resolve, if_neg (by simp [not_id_of_name hname]), if_neg (by simp [hname])]
  refine @always_hook_bind _ _ _ _ done (perform (.readClaim name)) _ fun bytes hbytes =>
    ⟨fun _ h => ?_, by rintro _ ⟨⟩⟩
  cases h
  obtain ⟨files, hfiles, rfl⟩ := hbytes
  obtain ⟨text, htext, hid⟩ := hfiles.claim
  rw [htext]
  refine @always_hook_bind _ _ _ _ _ (ofExcept (.ok (some text))) _ ⟨fun _ h => ?_, by rintro _ ⟨⟩⟩
  cases h
  simp only [hid]
  refine always_hook_bind (always_attempt ?_)
  rw [get_eq id (claimedId_ok hid)]
  refine @always_hook_bind _ _ _ _ _ (perform (.readRecord id)) _ fun bytes hbytes =>
    ⟨fun _ h => ?_, by rintro _ ⟨⟩⟩
  cases h
  -- the record may be read later than the claim
  obtain ⟨files', hfiles', rfl⟩ := hbytes
  obtain ⟨record, hrecord, hrecordName⟩ := hfiles'.record
  have hget : Workstreams.get E ⟨fun _ => none, fun _ => files'.store.records id⟩ id = .ok (some record) :=
    hrecord
  rw [hget]
  refine ⟨fun _ h => ?_, by rintro _ ⟨⟩⟩
  cases h
  obtain ⟨w, hw, hwid⟩ := get_workstream hget
  simp only [hrecordName, if_true]
  exact ⟨record, w, rfl, hw, hwid⟩

/-- **Asking for the present workstream is idempotent.** -/
theorem decide_belonging (r : Enrollment) {id : JsString} (hname : isWorkstreamName r.name = true)
    (done : List FileOp) :
    Process.Always (AnswersBelonging E provider sessionId r.name id)
      (fun _ result => ∃ admission, result = .ok (.idempotent admission)) done
      (decide E provider sessionId r).run := by
  refine always_hook_bind (@always_hook_bind _ _ _ _ done (perform (.readConsent provider sessionId)) _
    fun bytes hbytes => ⟨fun _ h => ?_, by rintro _ ⟨⟩⟩)
  cases h
  obtain ⟨files, hfiles, rfl⟩ := hbytes
  obtain ⟨p, hp, hid⟩ := hfiles.consent
  rw [hp]
  refine ⟨fun _ h => ?_, by rintro _ ⟨⟩⟩
  cases h
  refine always_hook_bind ((resolve_belonging provider sessionId hname _).mono ?_)
  rintro done result ⟨record, w, rfl, hw, hwid⟩
  refine ⟨fun _ h => ?_, by rintro _ ⟨⟩⟩
  cases h
  simp only [Option.bind_some, hw, decideMove, hwid, hid, if_true]
  exact ⟨_, rfl⟩

theorem enroll_belonging (r : Enrollment) (id : JsString) :
    Process.Performs (AnswersBelonging E provider sessionId r.name id) (fun o => o.writes = false)
      (enroll E provider sessionId r).run := by
  unfold enroll
  cases r.now with
  | none => exact trivial
  | some joinedAt =>
    simp only
    split
    · exact (readComponents_reads provider sessionId).bind (fun _ => .pure _) _
    · next hname =>
      have hvalid : isWorkstreamName r.name = true := by simpa using hname
      refine performs_hook_bind (decide_reads provider sessionId r)
        ((decide_belonging provider sessionId r hvalid []).mono ?_)
      rintro done result ⟨admission, rfl⟩ _ h
      cases h
      exact trivial

/-! ## Whatever else happens -/

/-- An admission that names no workstream only reads. -/
theorem admit_unnamed {request : AdmissionRequest} (h : ∀ r, request.invocation ≠ .enroll r) :
    Reads (admission E request) := by
  unfold admission
  cases hi : request.invocation with
  | absent =>
    refine .bind (readComponents_reads request.provider request.sessionId) fun existing => ?_
    cases existing with
    | none => exact .pure _
    | some p => exact .pure _
  | bare => exact describe_reads request.provider request.sessionId
  | enroll r => exact absurd hi (h r)

/-- **An admission that has written ends as a move, or in an exception.** -/
theorem admit_quiet (request : AdmissionRequest) :
    Process.Always R QuietEnd [] (admission E request).run := by
  have hnone : Silent [] := by rintro o ⟨⟩
  by_cases h : ∃ r, request.invocation = .enroll r
  · obtain ⟨r, hr⟩ := h
    rw [admission, hr]
    exact enroll_end request.provider request.sessionId r hnone
  · have hreads := @admit_unnamed E request fun r hr => h ⟨r, hr⟩
    exact (hreads.always hnone).mono fun done result hdone => QuietEnd.of_silent hdone result

variable {ι : Type} [DecidableEq ι]

variable (E) in
/-- Why an admission leaves the files alone: it was not honored or found nothing to do, it
names no workstream, or it names the one its session is in whenever it looks. -/
inductive LeavesAlone (request : AdmissionRequest) (i : ι)
    (now : Process FileOp FileOp.Ret (Except WorkstreamFailure (HookSessionAdmission E)))
    (trace : List (Performed ι FileOp AdmissionFiles)) : Prop
  | ended (admission : HookSessionAdmission E) (hend : now = .ret (.ok admission))
      (hquiet : admission.refused.isSome = true ∨ admission.initiated = false)
  | unnamed (h : ∀ r, request.invocation ≠ .enroll r)
  | repeated (r : Enrollment) (id : JsString) (h : request.invocation = .enroll r)
      (hbelongs : ∀ e ∈ trace, e.process = i →
        Belongs E request.provider request.sessionId r.name id e.before)

/-- **Refused, bare and idempotent admissions write nothing**: in every interleaving with
other admissions, and with whatever else works on the files, none of their operations
writes, and the files are what the operations of the others make of them. -/
theorem quiet_admission_untouched
    {start now : ι → Process FileOp FileOp.Ret (Except WorkstreamFailure (HookSessionAdmission E))}
    {files₀ files : AdmissionFiles} {trace : List (Performed ι FileOp AdmissionFiles)}
    (run : Interleaving FileOp.Answers FileOp.effect start files₀ now files trace) {i : ι}
    {request : AdmissionRequest} (hi : start i = (admission E request).run)
    (hquiet : LeavesAlone E request i (now i) trace) :
    (∀ e ∈ trace, e.process = i → e.op.writes = false) ∧
      files = (operationsOfOthers i trace).foldl (fun files o => o.effect files) files₀ := by
  have hsilent : ∀ e ∈ trace, e.process = i → e.op.writes = false := by
    cases hquiet with
    | ended admission hend hquiet =>
      have halways := run.always (R := fun _ _ => True) (fun _ _ _ _ _ => trivial)
        (hi ▸ admit_quiet request)
      rw [hend] at halways
      intro e he hei
      refine halways admission rfl hquiet e.op ?_
      simp only [operationsOf, List.mem_map, List.mem_filter]
      exact ⟨e, ⟨he, by simpa using hei⟩, rfl⟩
    | unnamed h =>
      exact (run.performs (R := fun _ _ => True) (fun _ _ _ _ _ => trivial) (hi ▸ admit_unnamed h _)).2
    | repeated r id h hbelongs =>
      have hstart : (start i).Performs (AnswersBelonging E request.provider request.sessionId r.name id)
          (fun o => o.writes = false) := by
        rw [hi, admission, h]
        exact enroll_belonging request.provider request.sessionId r id
      exact (run.performs (fun e he hei answer ha => ⟨e.before, hbelongs e he hei, ha⟩) hstart).2
  refine ⟨hsilent, run.others fun o ho files => ?_⟩
  simp only [operationsOf, List.mem_map, List.mem_filter] at ho
  obtain ⟨e, ⟨he, hei⟩, rfl⟩ := ho
  exact FileOp.effect_of_not_writes (hsilent e he (by simpa using hei)) files

/-- Nothing is there yet. -/
def emptyFiles : AdmissionFiles := ⟨fun _ _ => none, ⟨fun _ => none, fun _ => none⟩⟩

/-- One session creates a workstream, and another joins one that is not there. -/
def newAndJoin (joins : Bool) : AdmissionRequest :=
  ⟨if joins then .claude else .codex, firstSession, .enroll ⟨if joins then .join else .new, js "a", some 0⟩⟩

def newAndJoinStart (joins : Bool) :
    Process FileOp FileOp.Ret (Except WorkstreamFailure (HookSessionAdmission epochHost)) :=
  (admission epochHost (newAndJoin joins)).run

/-- The refused `join` has left the files empty. -/
theorem quiet_admission_join : ∃ (now : Bool → _) (files : AdmissionFiles)
    (trace : List (Performed Bool FileOp AdmissionFiles)),
    Interleaving FileOp.Answers FileOp.effect newAndJoinStart emptyFiles now files trace ∧
      trace.length = 3 ∧ ∀ e ∈ trace, e.process = true → e.op.writes = false := by
  have h0 : Interleaving FileOp.Answers FileOp.effect newAndJoinStart emptyFiles _ _ _ := .refl
  have hconsent : ∀ provider, (FileOp.readConsent provider firstSession).Answers emptyFiles
      (none : Option Bytes) := fun _ => rfl
  have hclaim : (FileOp.readClaim (js "a")).Answers emptyFiles (none : Option Bytes) := rfl
  have h1 := h0.step true _ _ _ rfl (hconsent .claude)
  have h2 := h1.step false _ _ _ rfl (hconsent .codex)
  have h3 := h2.step true _ _ _ rfl hclaim
  refine ⟨_, _, _, h3, rfl, ?_⟩
  exact (quiet_admission_untouched h3 rfl (.ended _ rfl (.inl rfl))).1

end Barbaro.Hooks
