import Barbaro.Hooks.ClaudeActivity

/-!
# The claims of tools in flight

The tools of a batch run side by side, and each of them announces itself before it runs. What
one of them may write stays in the lease of the actor while the others start and end.

* `update_cases`: an update changes nothing, or its lease takes the place of the old one.
* `Tells`: the lease of the actor tells what a tool may write.
* `Retains.step`: no event takes that back but those that end a batch or a turn, and a wait.
* `claims_retained`: so it is in every run.
* `await_drops_claims`: a wait does.
-/

namespace Barbaro.Active

section
variable {E : Host}

/-! ## What an update writes -/

theorem nextLease_get {call : StoreCall} {current : Option (ActiveLeaseV1 E)} {detached lease : Json}
    {ttlMs : ℤ} {key : String} (hkey : key ∉ generatedFields)
    (h : nextLease E call current detached ttlMs = .ok lease) :
    lease.get (js key) = detached.get (js key) := by
  simp only [nextLease, Outcome.guard_ok] at h
  obtain ⟨-, h⟩ := h
  rcases hnow : call.now with _ | now
  · rw [hnow] at h
    cases h
  · rw [hnow] at h
    simp only [Outcome.bind_ok, Outcome.pure_ok] at h
    obtain ⟨updated, -, expires, -, -, -, rfl⟩ := h
    rw [get_withFields]
    · cases detached <;> rfl
    · simp only [generatedFields, List.mem_cons, not_or] at hkey
      simp [hkey]

theorem detachLease_get {update detached : Json} {key : String} (hwf : update.WellFormed E.float)
    (hkey : key ∉ generatedFields) (h : detachLease E update = .ok detached) :
    detached.get (js key) = update.get (js key) := by
  obtain ⟨updated, expires, rfl, -⟩ := detachLease_eq hwf h
  rw [get_withFields]
  · cases update <;> rfl
  · exact hkey

/-- What is written is what was to be written, with what is generated. -/
theorem updateWrite_kept {call : StoreCall} {p : ActivePath} {actor : ActiveActorKey}
    {current : Option (ActiveLeaseV1 E)} {update : JsonInput E} {lease : Json} {ttlMs : ℤ}
    {files : ActiveFiles} (h : (updateWrite E call p actor current update ttlMs files).2 = .ok lease) :
    isObject (some update.json) = true ∧
      ∀ key, key ∉ generatedFields → lease.get (js key) = update.json.get (js key) := by
  obtain ⟨detached, hassert, hdetached, hnext⟩ := updateWrite_ok h
  simp only [assertUpdateDoesNotSetGeneratedFields, Outcome.guard_ok] at hassert
  refine ⟨by simpa using hassert.1, fun key hkey => ?_⟩
  rw [nextLease_get hkey hnext, detachLease_get update.wellFormed hkey hdetached]

variable (E) in
/-- A lease that an update has decided on takes the place of the current one. -/
structure Updates (decide : Option Json → Except Failure (ActiveLeaseDecision E)) (files : ActiveFiles)
    (p : ActivePath) (input : JsonInput E) (lease : Json) : Prop where
  commits : Commits E files p lease
  decided : decide ((committed E files p).map (fun current => cloneLease E current.json)) =
    .ok (.write input)
  object : isObject (some input.json) = true
  kept : ∀ key, key ∉ generatedFields → lease.get (js key) = input.json.get (js key)

theorem updateLocked_cases {call : StoreCall} {p : ActivePath} {actor : ActiveActorKey}
    (hnamed : actorPath E actor = .ok p)
    (decide : Option Json → Except Failure (ActiveLeaseDecision E)) (options : UpdateOptions)
    (files : ActiveFiles) : ((updateLocked E call p actor decide options files).1 = files ∧
        ∀ lease, (updateLocked E call p actor decide options files).2 ≠ .ok (.lease lease)) ∨
      ∃ input lease, Updates E decide files p input lease ∧
        (updateLocked E call p actor decide options files).1 =
          Function.update files p (some (leaseBytes lease)) := by
  unfold updateLocked
  split
  · exact .inl ⟨rfl, fun _ h => by cases h⟩
  · next current hread =>
    split
    · exact .inl ⟨rfl, fun _ h => by cases h⟩
    · split
      · exact .inl ⟨rfl, fun _ h => by cases h⟩
      · exact .inl ⟨rfl, fun _ h => by cases h⟩
      · next input hdecision =>
        have hwrites := @updateWrite_writes E call files p actor current input options.ttlMs hread hnamed
        rcases hwrite : updateWrite E call p actor current input options.ttlMs files with ⟨files', e | lease⟩
        · rw [hwrite] at hwrites
          obtain rfl : files' = files := hwrites
          exact .inl ⟨rfl, fun _ h => by cases h⟩
        · rw [hwrite] at hwrites
          obtain ⟨hcommit, heq⟩ : Commits E files p lease ∧ files' = _ := hwrites
          obtain ⟨hobject, hkept⟩ := updateWrite_kept (congrArg Prod.snd hwrite)
          obtain ⟨rfl, -⟩ := readPath_ok hread
          refine .inr ⟨input, lease, ⟨hcommit, hdecision, hobject, hkept⟩, ?_⟩
          -- what runs after the commit does not undo it
          dsimp only
          split
          · exact heq
          · exact heq

/-- **An update** changes nothing and returns no lease, or its lease takes the place of the old one. -/
theorem update_cases {call : StoreCall} {p : ActivePath} {actor : ActiveActorKey}
    (hnamed : actorPath E actor = .ok p)
    (decide : Option Json → Except Failure (ActiveLeaseDecision E)) (options : UpdateOptions)
    (files : ActiveFiles) : ((update E call actor decide options files).1 = files ∧
        ∀ lease, (update E call actor decide options files).2 ≠ .ok (.lease lease)) ∨
      ∃ input lease, Updates E decide files p input lease ∧
        (update E call actor decide options files).1 = Function.update files p (some (leaseBytes lease)) := by
  unfold update
  dsimp only
  split
  · exact .inl ⟨rfl, fun _ h => by cases h⟩
  · next p' hprepared =>
    simp only [hnamed, Outcome.bind_ok, Outcome.pure_ok] at hprepared
    obtain ⟨q, hq, -, -, rfl⟩ := hprepared
    cases hq
    have hcases := @updateLocked_cases E call p actor hnamed decide options files
    rcases hlock : withActiveActorLock call files (updateLocked E call p actor decide options) with
      ⟨files', outcome⟩
    rcases withActiveActorLock_cases hlock with ⟨rfl, e, rfl⟩ | ⟨e, hop, rfl⟩ | ⟨result, hop, hout⟩
    · exact .inl ⟨rfl, fun _ h => by cases h⟩
    · rw [hop] at hcases
      refine hcases.imp ?_ id
      rintro ⟨hsame, -⟩
      exact ⟨hsame, fun _ h => by cases h⟩
    · rw [hop] at hcases
      rcases hout with rfl | ⟨f, rfl⟩
      · refine hcases.imp ?_ id
        rintro ⟨hsame, hresult⟩
        exact ⟨hsame, fun lease h => hresult lease h⟩
      · rcases options.onLockReleaseFailure with _ | _
        · refine hcases.imp ?_ id
          rintro ⟨hsame, -⟩
          exact ⟨hsame, fun _ h => by cases h⟩
        · exact hcases

/-- There is no update without a path. -/
theorem update_unnamed {call : StoreCall} {actor : ActiveActorKey} {e : ActiveFailure}
    (hnamed : actorPath E actor = .error e)
    (decide : Option Json → Except Failure (ActiveLeaseDecision E)) (options : UpdateOptions)
    (files : ActiveFiles) : update E call actor decide options files = (files, .error e) := by
  unfold update
  rw [hnamed]
  rfl

/-- A commit changes the file. -/
theorem Commits.changes {files : ActiveFiles} {p : ActivePath} {lease : Json} (h : Commits E files p lease) :
    Function.update files p (some (leaseBytes lease)) p ≠ files p := by
  intro hsame
  have hcommitted : committed E files p = some ⟨lease, h.valid⟩ := by
    rw [← committed_commit h, committed, committed, hsame]
  have hnewer := (h.newer _ hcommitted).1
  exact Nat.lt_irrefl _ hnewer

end

end Barbaro.Active

namespace Barbaro.Hooks

open Active

section
variable {E : Host} {a : ClaudeActor}

/-! ## What a lease of the actor tells -/

/-- An update that is written is no stand-in. -/
theorem activity_json {workstreamId : Option JsString} {state : String} {intent currentAction : Option Json}
    {claims : List ActiveWriteClaim} {unknownWriteScope : Bool}
    (h : isObject (some (activity E a workstreamId state intent currentAction claims unknownWriteScope).json)) :
    (activity E a workstreamId state intent currentAction claims unknownWriteScope).json =
      activityJson a workstreamId state intent currentAction claims unknownWriteScope := by
  unfold activity JsonInput.ofJson at h ⊢
  split at h
  · next hplain => rw [dif_pos hplain]
  · cases h

/-- The members of a lease of the actor. -/
theorem get_activityJson (a : ClaudeActor) (workstreamId : Option JsString) (state : String)
    (intent currentAction : Option Json) (claims : List ActiveWriteClaim) (unknownWriteScope : Bool) :
    let lease := activityJson a workstreamId state intent currentAction claims unknownWriteScope
    lease.get (js "state") = some (.str (js state)) ∧
      lease.get (js "claims") = some (.arr (claims.map ActiveWriteClaim.toJson)) ∧
      lease.get (js "unknown_write_scope") = some (.bool unknownWriteScope) := by
  unfold activityJson identityFields optionalField
  rcases workstreamId with _ | w
  all_goals rcases intent with _ | intent
  all_goals rcases currentAction with _ | action
  all_goals simp [Json.get, Json.lookup, js_inj]

theorem claimsOf_of_get {lease : Json} {claims : List ActiveWriteClaim}
    (h : lease.get (js "claims") = some (.arr (claims.map ActiveWriteClaim.toJson))) :
    claimsOf lease = claims := by
  simp [claimsOf, itemsAt?, h, Function.comp_def, claimOf_toJson]

/-- The lease tells what a tool may write. -/
structure Tells (scope : ToolScope) (lease : Json) : Prop where
  claims : scope.claims ⊆ claimsOf lease
  unknown : scope.unknownWriteScope = true → isTrue (lease.get (js "unknown_write_scope")) = true

variable (E) in
/-- What holds of the leases while a tool is in flight. -/
structure Retains (p : ActivePath) (scope : ToolScope) (files : ActiveFiles) (lease : ActiveLeaseV1 E) :
    Prop where
  committed : committed E files p = some lease
  wellFormed : lease.json.WellFormed E.float
  busy : isIdle lease.json = false
  tells : Tells scope lease.json

/-- An update of a lease of the actor, as it is written. -/
theorem retains_of_updates {decide : Option Json → Except Failure (ActiveLeaseDecision E)}
    {files : ActiveFiles} {p : ActivePath} {scope : ToolScope} {lease : Json}
    {workstreamId : Option JsString} {state : String} {intent currentAction : Option Json}
    {claims : List ActiveWriteClaim} {unknownWriteScope : Bool}
    (h : Updates E decide files p
      (activity E a workstreamId state intent currentAction claims unknownWriteScope) lease)
    (hstate : state ≠ "idle") (hclaims : scope.claims ⊆ claims)
    (hunknown : scope.unknownWriteScope = true → unknownWriteScope = true) :
    ∃ lease', Retains E p scope (Function.update files p (some (leaseBytes lease))) lease' := by
  have hjson := activity_json h.object
  have hkept := h.kept
  rw [hjson] at hkept
  obtain ⟨hgetState, hgetClaims, hgetUnknown⟩ :=
    get_activityJson a workstreamId state intent currentAction claims unknownWriteScope
  refine ⟨⟨lease, h.commits.valid⟩, committed_commit h.commits, h.commits.wellFormed, ?_, ?_, ?_⟩
  · rw [isIdle, hkept "state" (by decide), hgetState, equalsText]
    simpa [js_inj] using hstate
  · rwa [claimsOf_of_get ((hkept "claims" (by decide)).trans hgetClaims)]
  · intro hscope
    rw [hkept "unknown_write_scope" (by decide), hgetUnknown, Active.isTrue]
    exact hunknown hscope

/-! ## Events of the actor -/

/-- One event, with what it meets. -/
structure ClaudeEvent (E : Host) where
  root : List JsString
  call : ClaudeHookCall E
  input : Json

/-- The leases after an event. -/
def ClaudeEvent.after (a : ClaudeActor) (e : ClaudeEvent E) (files : ActiveFiles) : ActiveFiles :=
  (handleClaudeHook E a e.call e.root e.input files).1

/-- The classification of the tool an event announces. -/
def ClaudeEvent.scope (e : ClaudeEvent E) : Option ToolScope :=
  (stringValue (e.input.get (js "tool_name"))).bind fun toolName =>
    describeToolScope E e.root toolName
      (((e.input.get (js "tool_input")).filter (fun v => isObject (some v))).getD (.obj []))

theorem scope_ok {e : ClaudeEvent E} {scope : ToolScope} (h : e.scope = some scope) :
    ∀ c ∈ scope.claims, c.Ok := by
  obtain ⟨toolName, -, hscope⟩ := Option.bind_eq_some_iff.1 h
  exact describeToolScope_ok hscope

/-- The leases a tool that is about to run meets. -/
def ClaudeEvent.reaped (e : ClaudeEvent E) (files : ActiveFiles) : ActiveFiles :=
  reap E e.call (eventOf e.input) files

/-- An accepted PreToolUse: the lease takes up what the tool may write. -/
structure Accepts (a : ClaudeActor) (e : ClaudeEvent E) (scope : ToolScope) (files : ActiveFiles) : Prop where
  joined : e.call.admission.joined = true
  event : eventOf e.input = js "PreToolUse"
  announced : e.scope = some scope
  changed : (settlePreTool E a e.call scope (e.reaped files)).1 ≠ e.reaped files

/-- The ends of a batch of tools, the prompts, the starts and the terminal events. -/
def endingEvents : List String :=
  ["PostToolBatch", "UserPromptSubmit", "UserPromptExpansion", "SessionStart", "SubagentStart",
    "SessionEnd", "Stop", "StopFailure", "SubagentStop"]

/-- The event ends what is in flight. An accepted wait does so too. -/
def Ends (a : ClaudeActor) (e : ClaudeEvent E) (files : ActiveFiles) : Prop :=
  isEvent endingEvents (eventOf e.input) = true ∨
    ∃ scope, Accepts a e scope files ∧ scope.awaitCommand.isSome

/-- The leases after a sequence of events. -/
def runEvents (a : ClaudeActor) : List (ClaudeEvent E) → ActiveFiles → ActiveFiles
  | [], files => files
  | e :: es, files => runEvents a es (e.after a files)

/-- No event of the sequence ends what is in flight. -/
def Undisturbed (a : ClaudeActor) : List (ClaudeEvent E) → ActiveFiles → Prop
  | [], _ => True
  | e :: es, files => ¬ Ends a e files ∧ Undisturbed a es (e.after a files)

/-- The reap deletes nothing but abandoned tombstones. -/
theorem reap_cases (c : ClaudeHookCall E) (event : JsString) (files : ActiveFiles) :
    reap E c event files = files ∨ ∃ now, Reaped E now files (reap E c event files) := by
  unfold reap
  split
  · unfold reapExpiredIdle
    split
    · exact .inl rfl
    · exact .inl rfl
    · exact .inr ⟨_, reapLoop_reaped⟩
  · exact .inl rfl

/-- **What an event does that does not end a batch or a turn**: the reap, and the change by a
tool that is about to run. -/
theorem after_cases {e : ClaudeEvent E} (files : ActiveFiles)
    (h : isEvent endingEvents (eventOf e.input) = false) :
    e.after a files = files ∨ e.after a files = e.reaped files ∨
      ∃ scope, e.call.admission.joined = true ∧ eventOf e.input = js "PreToolUse" ∧
        e.scope = some scope ∧ e.after a files = (settlePreTool E a e.call scope (e.reaped files)).1 := by
  simp only [isEvent, endingEvents, List.any_cons, List.any_nil, Bool.or_false, Bool.or_eq_false_iff,
    beq_eq_false_iff_ne] at h
  obtain ⟨hbatch, hprompt, hexpansion, hstart, hsub, hend, hstop, hfailure, hsubstop⟩ := h
  unfold ClaudeEvent.after handleClaudeHook
  dsimp only
  split
  · exact .inl rfl
  · next hjoined =>
    rw [if_neg, if_neg (Ne.symm hstop), if_neg (Ne.symm hsub)]
    · split
      · exact .inr (.inl rfl)
      · rw [if_neg (Ne.symm hbatch), if_neg]
        · split
          · next hevent =>
            unfold preToolUse
            split
            · exact .inr (.inl rfl)
            · next toolName hname =>
              dsimp only
              split
              · exact .inr (.inl rfl)
              · next scope hscope =>
                refine .inr (.inr ⟨scope, by simpa using hjoined, hevent, ?_, rfl⟩)
                rw [ClaudeEvent.scope, hname, Option.bind_some, hscope]
          · exact .inr (.inl rfl)
        · simp [isEvent, hprompt, hexpansion]
    · simp [isEvent, hstart, hend, hfailure, hsubstop]

/-- The change of the lease by a tool that is about to run. -/
theorem settlePreTool_cases {p : ActivePath} (hnamed : actorPath E a.key = .ok p) (c : ClaudeHookCall E)
    (scope : ToolScope) (files : ActiveFiles) : ((settlePreTool E a c scope files).1 = files ∧
        ∀ lease, (settlePreTool E a c scope files).2 ≠ .ok (.lease lease)) ∨
      ∃ input new, Updates E (fun previous => .ok (preToolDecision E a (admittedWorkstream E c) scope previous))
          files p input new ∧
        (settlePreTool E a c scope files).1 = Function.update files p (some (leaseBytes new)) :=
  update_cases hnamed _ _ files

/-- The lease of an actor at work is not reaped. -/
theorem Retains.reaped {p : ActivePath} {scope : ToolScope} {files : ActiveFiles} {lease : ActiveLeaseV1 E}
    (h : Retains E p scope files lease) (e : ClaudeEvent E) : Retains E p scope (e.reaped files) lease := by
  have hkept : e.reaped files p = files p := by
    rcases reap_cases e.call (eventOf e.input) files with hsame | ⟨now, hreaped⟩
    · rw [ClaudeEvent.reaped, hsame]
    · refine (hreaped p).resolve_right ?_
      rintro ⟨-, current, hcurrent, hidle, -⟩
      have hbusy := h.busy
      rw [h.committed] at hcurrent
      cases hcurrent
      rw [ActiveLeaseV1.state, textAt] at hidle
      split at hidle
      · next s hs =>
        rw [isIdle, hs, hidle, equalsText] at hbusy
        simp at hbusy
      · exact absurd hidle (by decide)
  refine ⟨?_, h.wellFormed, h.busy, h.tells⟩
  rw [Active.committed, hkept]
  exact h.committed

/-- **One event**: a lease that tells what a tool may write goes on to tell it. -/
theorem Retains.step {p : ActivePath} {scope : ToolScope} {files : ActiveFiles} {lease : ActiveLeaseV1 E}
    (hnamed : actorPath E a.key = .ok p) (h : Retains E p scope files lease) (e : ClaudeEvent E) (hgoes : ¬ Ends a e files) :
    ∃ lease', Retains E p scope (e.after a files) lease' := by
  rw [Ends, not_or, Bool.not_eq_true] at hgoes
  obtain ⟨hevent, hwait⟩ := hgoes
  rcases @after_cases E a e files hevent with hsame | hsame | ⟨next, hjoined, hpre, hnext, hafter⟩
  · rw [hsame]
    exact ⟨lease, h⟩
  · rw [hsame]
    exact ⟨lease, h.reaped e⟩
  · have hreaped := h.reaped e
    rw [hafter]
    rcases settlePreTool_cases hnamed e.call next (e.reaped files) with
      ⟨hsame, -⟩ | ⟨input, new, hupdates, hnew⟩
    · rw [hsame]
      exact ⟨lease, hreaped⟩
    · -- the tool is no wait, or it ended what is in flight
      have hawait : next.awaitCommand = none := by
        by_contra hsome
        refine hwait ⟨next, ⟨hjoined, hpre, hnext, ?_⟩, Option.isSome_iff_ne_none.2 hsome⟩
        intro hsame
        exact hupdates.commits.changes ((congrFun hnew p).symm.trans (congrFun hsame p))
      have hdecided := hupdates.decided
      rw [hreaped.committed, Option.map_some, cloneLease_eq hreaped.wellFormed, preToolDecision,
        Option.any_some, hreaped.busy, if_neg (by simp), hawait] at hdecided
      cases hdecided
      have hclaims : claimsOf lease.json ⊆ mergeClaims (claimsOf lease.json) next.claims :=
        subset_mergeClaims_left (claimsOf_ok lease.valid) (scope_ok hnext)
      rw [hnew]
      refine retains_of_updates hupdates (by decide) (List.Subset.trans h.tells.claims hclaims) ?_
      intro hunknown
      rw [Option.any_some, h.tells.unknown hunknown, Bool.true_or]

theorem handleClaudeHook_preToolUse {e : ClaudeEvent E} (hjoined : e.call.admission.joined = true)
    (hevent : eventOf e.input = js "PreToolUse") (files : ActiveFiles) :
    handleClaudeHook E a e.call e.root e.input files =
      preToolUse E a e.call e.root (js "PreToolUse") e.input (e.reaped files) := by
  simp only [handleClaudeHook, hjoined, hevent, isEvent, List.any_cons, List.any_nil, ClaudeEvent.reaped]
  simp [js_inj]

theorem after_preToolUse {e : ClaudeEvent E} {scope : ToolScope} (hjoined : e.call.admission.joined = true)
    (hevent : eventOf e.input = js "PreToolUse") (hscope : e.scope = some scope) (files : ActiveFiles) :
    handleClaudeHook E a e.call e.root e.input files =
      ((settlePreTool E a e.call scope (e.reaped files)).1,
        (settlePreTool E a e.call scope (e.reaped files)).2.bind (fun result =>
          toolBoundary E a e.call (updateHookResult (js "PreToolUse") result))) := by
  obtain ⟨toolName, hname, hdescribed⟩ := Option.bind_eq_some_iff.1 hscope
  rw [handleClaudeHook_preToolUse hjoined hevent]
  unfold preToolUse
  simp only [hname, hdescribed]

/-- The lease an accepted tool has the actor write. -/
theorem Accepts.updates {e : ClaudeEvent E} {scope : ToolScope} {files : ActiveFiles}
    (h : Accepts a e scope files) : ∃ p input new, actorPath E a.key = .ok p ∧
      Updates E (fun previous => .ok (preToolDecision E a (admittedWorkstream E e.call) scope previous))
        (e.reaped files) p input new ∧
      e.after a files = Function.update (e.reaped files) p (some (leaseBytes new)) := by
  rcases hnamed : actorPath E a.key with failure | p
  · refine absurd ?_ h.changed
    rw [settlePreTool, update_unnamed hnamed]
  · rw [ClaudeEvent.after, after_preToolUse h.joined h.event h.announced]
    rcases settlePreTool_cases hnamed e.call scope (e.reaped files) with
      ⟨hsame, -⟩ | ⟨input, new, hupdates, hnew⟩
    · exact absurd hsame h.changed
    · exact ⟨p, input, new, rfl, hupdates, hnew⟩

/-- **An accepted tool is told**: its claims are added to whatever the lease held. -/
theorem Accepts.retains {e : ClaudeEvent E} {scope : ToolScope} {files : ActiveFiles}
    (h : Accepts a e scope files) :
    ∃ p lease, actorPath E a.key = .ok p ∧ Retains E p scope (e.after a files) lease := by
  obtain ⟨p, input, new, hnamed, hupdates, hafter⟩ := h.updates
  have hdecided := hupdates.decided
  rw [hafter]
  unfold preToolDecision at hdecided
  split at hdecided
  · cases hdecided
  · rcases hawait : scope.awaitCommand with _ | await
    · rw [hawait] at hdecided
      cases hdecided
      obtain ⟨lease, hlease⟩ := retains_of_updates hupdates (by decide)
        (subset_mergeClaims_right (scope_ok h.announced)) (fun hunknown => by rw [hunknown, Bool.or_true])
      exact ⟨p, lease, hnamed, hlease⟩
    · -- a wait has nothing to tell
      obtain ⟨toolName, -, hscope⟩ := Option.bind_eq_some_iff.1 h.announced
      obtain ⟨hclaims, hunknown⟩ := describeToolScope_await hscope (by rw [hawait]; rfl)
      rw [hawait] at hdecided
      cases hdecided
      have hretains : ∃ lease, Retains E p scope
          (Function.update (e.reaped files) p (some (leaseBytes new))) lease :=
        retains_of_updates hupdates (by decide) (by simp [hclaims]) (by simp [hunknown])
      obtain ⟨lease, hlease⟩ := hretains
      exact ⟨p, lease, hnamed, hlease⟩

/-- **An accepted wait claims nothing**, whatever was in flight. -/
theorem Accepts.waits {e : ClaudeEvent E} {scope : ToolScope} {files : ActiveFiles}
    (h : Accepts a e scope files) (hwait : scope.awaitCommand.isSome) :
    ∃ p lease, actorPath E a.key = .ok p ∧ committed E (e.after a files) p = some lease ∧
      claimsOf lease.json = [] := by
  obtain ⟨p, input, new, hnamed, hupdates, hafter⟩ := h.updates
  have hdecided := hupdates.decided
  have hkept := hupdates.kept "claims" (by decide)
  unfold preToolDecision at hdecided
  split at hdecided
  · cases hdecided
  · obtain ⟨await, hawait⟩ := Option.isSome_iff_exists.1 hwait
    rw [hawait] at hdecided
    cases hdecided
    rw [activity_json hupdates.object] at hkept
    obtain ⟨-, hclaims, -⟩ := get_activityJson a (admittedWorkstream E e.call) "waiting"
      (intentOf ((committed E (e.reaped files) p).map (fun current => cloneLease E current.json)))
      scope.action [] false
    rw [hafter]
    exact ⟨p, ⟨new, hupdates.commits.valid⟩, hnamed, committed_commit hupdates.commits,
      claimsOf_of_get (hkept.trans hclaims)⟩

/-- A tool whose hook returns a revision was accepted. -/
theorem accepts_of_revision {e : ClaudeEvent E} {files : ActiveFiles} {result : ClaudeHookResult}
    (hevent : eventOf e.input = js "PreToolUse")
    (h : (handleClaudeHook E a e.call e.root e.input files).2 = .ok result)
    (hrevision : result.activeRevision.isSome) : ∃ scope, Accepts a e scope files := by
  rcases hjoined : e.call.admission.joined with _ | _
  · simp only [handleClaudeHook, hjoined, Bool.not_false, if_true, Except.ok.injEq] at h
    subst h
    cases hrevision
  · rcases hscope : e.scope with _ | scope
    · rw [handleClaudeHook_preToolUse hjoined hevent] at h
      rw [ClaudeEvent.scope, Option.bind_eq_none_iff] at hscope
      unfold preToolUse at h
      rcases hname : stringValue (e.input.get (js "tool_name")) with _ | toolName
      · simp only [hname, Except.ok.injEq] at h
        subst h
        cases hrevision
      · simp only [hname, hscope toolName hname, Except.ok.injEq] at h
        subst h
        cases hrevision
    · refine ⟨scope, hjoined, hevent, hscope, fun hsame => ?_⟩
      rw [after_preToolUse hjoined hevent hscope] at h
      obtain ⟨settled, hsettled, hresult⟩ := Outcome.bind_ok.1 h
      rcases settled with reason | lease
      · simp only [toolBoundary, updateHookResult, Option.isNone_none, Bool.or_true, if_true,
          Except.ok.injEq] at hresult
        subst hresult
        cases hrevision
      · rcases hnamed : actorPath E a.key with failure | p
        · rw [settlePreTool, update_unnamed hnamed] at hsettled
          cases hsettled
        · rcases settlePreTool_cases hnamed e.call scope (e.reaped files) with
            ⟨-, hno⟩ | ⟨input, new, hupdates, hnew⟩
          · exact hno lease hsettled
          · exact hupdates.commits.changes (congrFun (hnew.symm.trans hsame) p)

/-- The lease goes on to tell what the tool may write. -/
theorem Retains.run {p : ActivePath} {scope : ToolScope} (hnamed : actorPath E a.key = .ok p)
    (es : List (ClaudeEvent E)) {files : ActiveFiles} {lease : ActiveLeaseV1 E}
    (h : Retains E p scope files lease) (hes : Undisturbed a es files) :
    ∃ lease', Retains E p scope (runEvents a es files) lease' := by
  induction es generalizing files lease with
  | nil => exact ⟨lease, h⟩
  | cons e es ih =>
    obtain ⟨hgoes, hes⟩ := hes
    obtain ⟨next, hnext⟩ := h.step hnamed e hgoes
    exact ih hnext hes

/-- **The claims of a tool in flight are retained**: from the event that was accepted on, as
long as no event ends what is in flight. -/
theorem claims_retained (a : ClaudeActor) (e : ClaudeEvent E) (scope : ToolScope) (files : ActiveFiles)
    (es : List (ClaudeEvent E)) (haccepted : Accepts a e scope files)
    (hes : Undisturbed a es (e.after a files)) :
    ∃ p lease, actorPath E a.key = .ok p ∧ committed E (runEvents a es (e.after a files)) p = some lease ∧
      Tells scope lease.json := by
  obtain ⟨p, lease, hnamed, hretains⟩ := haccepted.retains
  obtain ⟨last, hlast⟩ := hretains.run hnamed es hes
  exact ⟨p, last, hnamed, hlast.committed, hlast.tells⟩

end

/-! ## An edit beside a wait -/

/-- A host that knows the dates of the samples. -/
def flightHost : Host :=
  Host.ofTables [] [(0, js "1970-01-01T00:00:00.000Z"), (1, js "1970-01-01T00:00:00.001Z"),
    (1000, js "1970-01-01T00:00:01.000Z"), (301000, js "1970-01-01T00:05:01.000Z"),
    (661000, js "1970-01-01T00:11:01.000Z")] (by decide +kernel)

def flightActor : ClaudeActor :=
  ⟨js "lease_" ++ List.replicate 32 48, js "ses_" ++ List.replicate 32 48, js "main"⟩

/-- A tool of a session that has joined. -/
def toolEvent (toolName : String) (input : List (JsString × Json)) : ClaudeEvent flightHost where
  root := [js "repo"]
  call := { admission := { joined := true, initiated := false }, store := { now := some 1000 } }
  input := .obj [(js "hook_event_name", .str (js "PreToolUse")), (js "tool_name", .str (js toolName)),
    (js "tool_input", .obj input)]

def editEvent : ClaudeEvent flightHost := toolEvent "Edit" [(js "file_path", .str (js "/repo/a.ts"))]

def waitEvent : ClaudeEvent flightHost := toolEvent "Bash" [(js "command", .str (js "barbaro await"))]

def editScope : ToolScope where
  action := .obj [(js "kind", .str (js "file_change")), (js "tool_name", .str (js "Edit")),
    (js "path", .str (js "a.ts"))]
  claims := [⟨js "a.ts", js "write", js "exact"⟩]
  unknownWriteScope := false

def waitScope : ToolScope where
  action := .obj [(js "kind", .str (js "command")), (js "tool_name", .str (js "Bash")),
    (js "command", excerptContent (js "barbaro await") activeCommandBytes)]
  claims := []
  unknownWriteScope := false
  awaitCommand := some ⟨600000, 660000⟩

theorem editEvent_scope : editEvent.scope = some editScope := by rfl

theorem waitEvent_scope : waitEvent.scope = some waitScope := by rfl

/-- The revisions the events return. -/
def revisionsOf (a : ClaudeActor) : List (ClaudeEvent flightHost) → ActiveFiles → List (Option ℕ)
  | [], _ => []
  | e :: es, files =>
    (handleClaudeHook flightHost a e.call e.root e.input files).2.toOption.bind (·.activeRevision) ::
      revisionsOf a es (e.after a files)

/-- Both tools are accepted, one after the other. -/
theorem edit_wait_revisions :
    revisionsOf flightActor [editEvent, waitEvent] (fun _ => none) = [some 1, some 2] := by decide +kernel

theorem accepts_of_returned {e : ClaudeEvent flightHost} {scope : ToolScope} {files : ActiveFiles} {n : ℕ}
    (hevent : eventOf e.input = js "PreToolUse") (hscope : e.scope = some scope)
    (h : (handleClaudeHook flightHost flightActor e.call e.root e.input files).2.toOption.bind
      (·.activeRevision) = some n) : Accepts flightActor e scope files := by
  obtain ⟨result, hresult, hrevision⟩ := Option.bind_eq_some_iff.1 h
  obtain ⟨scope', haccepts⟩ := accepts_of_revision hevent (Outcome.toOption_some.1 hresult)
    (by rw [hrevision]; rfl)
  have hsame := haccepts.announced
  rw [hscope] at hsame
  cases hsame
  exact haccepts

theorem editEvent_accepted : Accepts flightActor editEvent editScope (fun _ => none) := by
  have h := edit_wait_revisions
  simp only [revisionsOf, List.cons.injEq] at h
  exact accepts_of_returned rfl editEvent_scope h.1

theorem waitEvent_accepted :
    Accepts flightActor waitEvent waitScope (editEvent.after flightActor (fun _ => none)) := by
  have h := edit_wait_revisions
  simp only [revisionsOf, List.cons.injEq] at h
  exact accepts_of_returned rfl waitEvent_scope h.2.1

/-- The end of the edit, beside which others may run. -/
def editDone : ClaudeEvent flightHost :=
  { editEvent with input := .obj [(js "hook_event_name", .str (js "PostToolUse"))] }

/-- The file that is edited is still claimed when the edit itself has ended. -/
theorem edit_retained : ∃ p lease, actorPath flightHost flightActor.key = .ok p ∧
    committed flightHost (runEvents flightActor [editDone] (editEvent.after flightActor fun _ => none)) p =
      some lease ∧ Tells editScope lease.json := by
  refine claims_retained flightActor editEvent editScope (fun _ => none) [editDone] editEvent_accepted ?_
  refine ⟨?_, trivial⟩
  rintro (hends | ⟨scope, haccepts, -⟩)
  · exact absurd hends (by decide)
  · exact absurd haccepts.event (by decide)

/-- **A wait drops the claims of a tool in flight**, though it ends no batch and no turn. -/
theorem await_drops_claims : ¬ ∀ (a : ClaudeActor) (e : ClaudeEvent flightHost) (scope : ToolScope)
    (files : ActiveFiles) (es : List (ClaudeEvent flightHost)), Accepts a e scope files →
    (∀ next ∈ es, isEvent endingEvents (eventOf next.input) = false) →
    ∃ p lease, actorPath flightHost a.key = .ok p ∧
      committed flightHost (runEvents a es (e.after a files)) p = some lease ∧ Tells scope lease.json := by
  intro h
  obtain ⟨p, lease, hnamed, hlease, htells⟩ :=
    h flightActor editEvent editScope (fun _ => none) [waitEvent] editEvent_accepted (by
      intro next hnext
      rw [List.mem_singleton.1 hnext]
      decide)
  obtain ⟨p', lease', hnamed', hlease', hnone⟩ := waitEvent_accepted.waits rfl
  rw [hnamed] at hnamed'
  cases hnamed'
  rw [runEvents, runEvents, hlease'] at hlease
  cases hlease
  have hclaimed := htells.claims (List.mem_singleton.2 rfl)
  rw [hnone] at hclaimed
  cases hclaimed

end Barbaro.Hooks
