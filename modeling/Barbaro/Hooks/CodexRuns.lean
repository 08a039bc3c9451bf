import Barbaro.Hooks.CodexTurns

/-!
# Runs of the Codex hooks

The hooks of an actor run in any order and at any time, each Stop with whatever happens between its
two changes, while the trace of the actor grows and the leases of others come and go.

* `CodexMove`: what happens to the lease of an actor.
* `CodexMove.ok`: a Stop between its changes still knows the lease it has written.
* `codex_fenced`: every move is a step of the fence.
* `finished_stays`: a turn that is over is not at work again.
* `child_converges`: the events of one turn of a child may come in any order.
-/

namespace Barbaro.Hooks

open Active Codex TurnFence

/-! ## Worlds -/

/-- A Stop that is between its two changes, with the lease as the first one has left it. -/
structure PendingStop where
  actor : CodexIdentity
  stop : StopContinuation
  idled : Option Bytes

/-- The leases, the trace of the actor, the Stops that are between their two changes, and the prompts
so far: their turns and the intents they told. -/
structure CodexWorld where
  files : ActiveFiles
  trace : Bytes
  stops : List PendingStop := []
  prompts : List (Option JsString × Json) := []

/-- A Stop that may go on, after its first change. -/
def begunStop (a : CodexIdentity) (p : ActivePath)
    (begun : ActiveFiles × Except ActiveFailure (CodexHookResult × Option StopContinuation)) : List PendingStop :=
  match begun.2 with
  | .ok (_, some stop) => [⟨a, stop, begun.1 p⟩]
  | _ => []

/-- What a prompt tells. -/
def promptOf (h : CodexHookInput) (a : CodexIdentity) (input : Json) : List (Option JsString × Json) :=
  if h.event = js "UserPromptSubmit" then
    [(a.turnId, boundedContent ((stringValue (input.get (js "prompt"))).getD []) activeIntentBytes)]
  else []

inductive CodexLabel
  /-- An event, with the turn it names. -/
  | told (event : JsString) (turn : Option JsString)
  /-- The second change of a Stop of this turn. -/
  | resumed (turn : JsString)
  | reaped
  /-- The trace has grown. -/
  | grown
  | elsewhere

/-- What is told of the actor, if anything is. -/
def CodexLabel.act : CodexLabel → Option (Act JsString)
  | told event turn => some (toldAct event turn)
  | resumed turn => some (.resume turn)
  | reaped => some .reap
  | grown => none
  | elsewhere => none

section
variable (E : Host)

/-- What happens to the lease of an actor, which is at this path. -/
inductive CodexMove (x : CodexActor) (p : ActivePath) : CodexWorld → CodexLabel → CodexWorld → Prop
  | event {w : CodexWorld} {c : CodexHookCall E} {h : CodexHookInput} {a : CodexIdentity} {input : Json}
      {message : Option JsString} (hof : EventOf E x h a) (hreads : ReadsTrace c h w.trace)
      (hstop : h.event ≠ js "Stop") :
      CodexMove x p w (.told h.event a.turnId)
        { w with
          files := (dispatch E c h a input message w.files).1
          prompts := w.prompts ++ promptOf h a input }
  | beginStop {w : CodexWorld} {c : CodexHookCall E} {h : CodexHookInput} {a : CodexIdentity} {input : Json}
      (hof : EventOf E x h a) (hreads : ReadsTrace c h w.trace) (hstop : h.event = js "Stop") :
      CodexMove x p w (.told h.event a.turnId)
        { w with
          files := (beginStop E c h a input w.files).1
          stops := w.stops ++ begunStop a p (beginStop E c h a input w.files) }
  | continueStop {w : CodexWorld} {c : CodexHookCall E} {h : CodexHookInput} {entry : PendingStop}
      (hbegun : entry ∈ w.stops) : CodexMove x p w (.resumed entry.stop.turnId)
        { w with files := (continueStop E c h entry.actor entry.stop w.files).1 }
  /-- Stops are done, or their processes are. -/
  | ended {w : CodexWorld} {stops : List PendingStop} (hstops : stops ⊆ w.stops) :
      CodexMove x p w .elsewhere { w with stops }
  /-- No Stop is between its changes: a reap comes a day after the lease has expired. -/
  | reap {w : CodexWorld} {now : ℤ} {files : ActiveFiles} (hreaped : Reaped E now w.files files)
      (hstops : w.stops = []) : CodexMove x p w .reaped { w with files }
  | grow {w : CodexWorld} (more : Bytes) : CodexMove x p w .grown { w with trace := w.trace ++ more }
  /-- What happens to the leases of others. -/
  | elsewhere {w : CodexWorld} {files : ActiveFiles} (hstored : Stored E files) (hsame : files p = w.files p) :
      CodexMove x p w .elsewhere { w with files }

/-- A Stop that has idled the actor: its lease is there, or a newer one. -/
structure Begun (x : CodexActor) (p : ActivePath) (files : ActiveFiles) (entry : PendingStop) : Prop where
  key : entry.actor.key = x.key E
  turn : entry.actor.turnId = some entry.stop.turnId
  main : entry.actor.agentId = js "main"
  unblocked : entry.stop.stoppedResult.stopReason = false
  later : ∃ current, committed E files p = some current ∧ entry.stop.stoppedRevision ≤ current.revision ∧
    (current.revision = entry.stop.stoppedRevision →
      files p = entry.idled ∧ leasePhase current.json = .closed (some entry.stop.turnId))

structure CodexWorld.Ok (x : CodexActor) (p : ActivePath) (w : CodexWorld) : Prop where
  stored : Stored E w.files
  begun : ∀ entry ∈ w.stops, Begun E x p w.files entry

end

section
variable {E : Host} {x : CodexActor} {p : ActivePath} {c : CodexHookCall E} {h : CodexHookInput} {a : CodexIdentity}
  {input : Json} {files : ActiveFiles}

/-! ## The two changes of a Stop -/

/-- The lease after a commit. -/
theorem Replaces.committed {files' : ActiveFiles} {state : String} {intent extensions : Option Json} {lease : Json}
    (h : Replaces E a p files files' state intent extensions lease) :
    committed E files' p = some ⟨lease, h.commits.valid⟩ := by
  obtain ⟨hcommits, -, rfl⟩ := h
  exact committed_commit hcommits

theorem Replaces.phase {files' : ActiveFiles} {state : String} {intent extensions : Option Json} {lease : Json}
    (h : Replaces E a p files files' state intent extensions lease) :
    phaseAt E files' p = if state = "idle" then .closed a.turnId else .live a.turnId := by
  rw [phaseAt, h.committed, Option.map_some, phaseOf]
  exact h.members.phase

theorem Replaces.stored {files' : ActiveFiles} {state : String} {intent extensions : Option Json} {lease : Json}
    (h : Replaces E a p files files' state intent extensions lease) (hstored : Stored E files) : Stored E files' := by
  rw [h.after]
  exact hstored.commit h.commits

variable (E p c h a input files) in
/-- What a Stop leaves for its second change, when it has written this lease. -/
structure Settled (lease : Json) (entry : PendingStop) : Prop where
  settled : (settle E c a (staleMainTurnDecision E c h a) (fun _ => codexIdle E a) files).2 = .ok (.lease lease)
  actor : entry.actor = a
  turn : a.turnId = some entry.stop.turnId
  main : a.agentId = js "main"
  intent : entry.stop.priorIntent = if (shownLease E c a files).isSome &&
    (shownLease E c a files).bind (textAt? "turn_id") == a.turnId then intentOf (shownLease E c a files) else none
  revision : entry.stop.stoppedRevision = leaseRevision lease
  result : entry.stop.stoppedResult = codexUpdateResult h.event (.lease lease)
  idled : entry.idled = (beginStop E c h a input files).1 p

theorem begunStop_settled {entry : PendingStop} (hentry : entry ∈ begunStop a p (beginStop E c h a input files)) :
    ∃ lease, Settled E p c h a input files lease entry := by
  have hresult : ∃ result, (beginStop E c h a input files).2 = .ok (result, some entry.stop) ∧ entry.actor = a ∧
      entry.idled = (beginStop E c h a input files).1 p := by
    unfold begunStop at hentry
    split at hentry
    · next result stop heq =>
      cases List.mem_singleton.1 hentry
      exact ⟨result, heq, rfl, rfl⟩
    · cases hentry
  obtain ⟨result, hresult, hactor, hidled⟩ := hresult
  unfold beginStop at hresult
  simp only [Outcome.bind_ok] at hresult
  obtain ⟨settled, hsettled, hresult⟩ := hresult
  cases settled with
  | ignored reason => cases hresult
  | lease lease =>
    simp only [codexUpdateResult, Outcome.bind_ok] at hresult
    obtain ⟨-, -, hresult⟩ := hresult
    split at hresult
    · cases hresult
    · next turnId hturn =>
      split at hresult
      · cases hresult
      · next hmain =>
        rw [not_or, not_not] at hmain
        obtain ⟨actor, stop, idled⟩ := entry
        cases hresult
        exact ⟨lease, hsettled, hactor, hturn, hmain.1, rfl, rfl, rfl, hidled⟩

/-- What a Stop leaves for its second change: the lease it has written. -/
theorem beginStop_begun (hof : EventOf E x h a) (hnamed : actorPath E (x.key E) = .ok p) {entry : PendingStop}
    (hentry : entry ∈ begunStop a p (beginStop E c h a input files)) :
    Begun E x p (beginStop E c h a input files).1 entry := by
  obtain ⟨lease, hstop⟩ := begunStop_settled hentry
  have hreturned := update_returned (hof.key ▸ hnamed) hstop.settled
  obtain ⟨written, hupdates⟩ := hreturned.updates
  obtain ⟨-, rfl⟩ := unlessStale_write hupdates.decided
  have hmembers := (codexIdle_of a).kept hupdates.kept
  have hcommitted : committed E (beginStop E c h a input files).1 p = some ⟨lease, hupdates.commits.valid⟩ := by
    rw [show (beginStop E c h a input files).1 = _ from hreturned.after]
    exact committed_commit hupdates.commits
  refine ⟨?_, ?_, ?_, ?_, _, hcommitted, hstop.revision.le, fun _ => ⟨hstop.idled.symm, ?_⟩⟩
  · rw [hstop.actor, hof.key]
  · rw [hstop.actor, hstop.turn]
  · rw [hstop.actor, hstop.main]
  · rw [hstop.result]
    rfl
  · rw [hmembers.phase, if_pos rfl, hstop.turn]

/-- A Stop goes on with the very lease it has written, if it goes on. -/
theorem continueStop_cases {entry : PendingStop} (hnamed : actorPath E (x.key E) = .ok p)
    (hstored : Stored E files) (hbegun : Begun E x p files entry) :
    ((continueStop E c h entry.actor entry.stop files).1 = files ∧
        ∀ result, (continueStop E c h entry.actor entry.stop files).2 = .ok result → result = entry.stop.stoppedResult) ∨
      ∃ current lease, committed E files p = some current ∧ current.revision = entry.stop.stoppedRevision ∧
        c.nudge = .ok true ∧
        Replaces E entry.actor p files (continueStop E c h entry.actor entry.stop files).1 "working" entry.stop.priorIntent
          (some (stopContinuationExtensions entry.stop.turnId)) lease ∧
        (continueStop E c h entry.actor entry.stop files).2 =
          .ok { codexUpdateResult h.event (.lease lease) with stopReason := true } := by
  obtain ⟨a, stop, idled⟩ := entry
  obtain ⟨hkey, hturn, hmain, -, current, hcurrent, hle, hclosed⟩ := hbegun
  rw [← hkey] at hnamed
  unfold continueStop
  dsimp only at *
  set decide := codexContinueDecision E c a stop.turnId stop.priorIntent stop.stoppedRevision
  set options : UpdateOptions := { onWriteFailure := some fun _ => c.rollback, onLockReleaseFailure := true }
  rcases update_cases hnamed decide options files with ⟨hsame, hnone⟩ | ⟨written, lease, hupdates, hafter⟩
  · refine .inl ⟨hsame, fun result hresult => ?_⟩
    rw [Outcome.bind_ok] at hresult
    obtain ⟨settled, hsettled, hresult⟩ := hresult
    cases settled with
    | ignored reason =>
      cases hresult
      rfl
    | lease lease => exact absurd hsettled (hnone lease)
  · have hdecided := hupdates.decided
    have hshown := hstored.shown p
    rw [shownAt, hcurrent] at hshown
    rw [hcurrent, hshown, Option.map_some] at hdecided
    unfold decide codexContinueDecision at hdecided
    split at hdecided
    · next hidled =>
      simp only [Option.any_some, Bool.and_eq_true, beq_iff_eq] at hidled
      simp only [Outcome.bind_ok] at hdecided
      obtain ⟨announced, hnudge, hdecided⟩ := hdecided
      cases announced with
      | false => cases hdecided
      | true =>
        cases hdecided
        have hmembers := (codexLease_of hupdates.object).kept hupdates.kept
        refine .inr ⟨current, lease, hcurrent, hidled.2, hnudge, ⟨hupdates.commits, hmembers, hafter⟩, ?_⟩
        -- a change that is committed is returned: the failure of the lock is observed
        have hchanged : (update E c.again a.key decide options files).1 ≠ files := fun hsame =>
          hupdates.commits.changes (congrFun (hafter.symm.trans hsame) p)
        cases hresult : (update E c.again a.key decide options files).2 with
        | error e => exact absurd (update_failed hnamed rfl rfl hresult) hchanged
        | ok settled =>
          cases settled with
          | ignored reason => exact absurd (update_ignored hnamed hresult).1 hchanged
          | lease found =>
            have hreturned := update_returned hnamed hresult
            obtain ⟨asked, hfound⟩ := hreturned.updates
            have hlease := committed_commit hfound.commits
            rw [← hreturned.after, hafter, committed_commit hupdates.commits] at hlease
            cases hlease
            rfl
    · cases hdecided

/-! ## What a move keeps -/

/-- A Stop between its changes knows the lease that takes the place of its own as a newer one. -/
theorem Begun.replaced {files' : ActiveFiles} {state : String} {intent extensions : Option Json} {lease : Json}
    {entry : PendingStop} (hbegun : Begun E x p files entry)
    (h : Replaces E a p files files' state intent extensions lease) : Begun E x p files' entry := by
  obtain ⟨hkey, hturn, hmain, hunblocked, current, hcurrent, hle, -⟩ := hbegun
  have hnewer := (h.commits.newer current hcurrent).1
  refine ⟨hkey, hturn, hmain, hunblocked, _, h.committed, ?_, fun heq => ?_⟩
  · change entry.stop.stoppedRevision ≤ leaseRevision lease
    omega
  · have hrevision : leaseRevision lease = entry.stop.stoppedRevision := heq
    omega

theorem Begun.asked {files' : ActiveFiles} {entry : PendingStop} (hbegun : Begun E x p files entry)
    (h : Asked c h a input p files files') : Begun E x p files' entry := by
  rcases h with rfl | ⟨state, intent, extensions, lease, -, hreplaces⟩
  · exact hbegun
  · exact hbegun.replaced hreplaces

theorem Asked.stored {files' : ActiveFiles} (h : Asked c h a input p files files') (hstored : Stored E files) :
    Stored E files' := by
  rcases h with rfl | ⟨state, intent, extensions, lease, -, hreplaces⟩
  · exact hstored
  · exact hreplaces.stored hstored

theorem Begun.congr {files' : ActiveFiles} {entry : PendingStop} (hbegun : Begun E x p files entry)
    (hsame : files' p = files p) : Begun E x p files' entry := by
  obtain ⟨hkey, hturn, hmain, hunblocked, hlater⟩ := hbegun
  rw [committed, ← hsame] at hlater
  exact ⟨hkey, hturn, hmain, hunblocked, hlater⟩

/-- **A Stop between its changes** still knows the lease it has written, whatever happens. -/
theorem CodexMove.ok {w w' : CodexWorld} {label : CodexLabel} (hnamed : actorPath E (x.key E) = .ok p)
    (hmove : CodexMove E x p w label w') (hok : w.Ok E x p) : w'.Ok E x p := by
  cases hmove with
  | @event c h a input message hof hreads hstop =>
    have hasked := @dispatch_asked E c h a w.files p input (hof.key ▸ hnamed) hstop message
    exact ⟨hasked.stored hok.stored, fun entry hentry => (hok.begun entry hentry).asked hasked⟩
  | @beginStop c h a input hof hreads hstop =>
    have hasked := @beginStop_asked E c h a w.files p input (hof.key ▸ hnamed) hstop
    refine ⟨hasked.stored hok.stored, fun entry hentry => ?_⟩
    rcases List.mem_append.1 hentry with hold | hnew
    · exact (hok.begun entry hold).asked hasked
    · exact beginStop_begun hof hnamed hnew
  | @continueStop c h entry hbegun =>
    rcases @continueStop_cases E x p c h w.files entry hnamed hok.stored (hok.begun _ hbegun) with
      ⟨hsame, -⟩ | ⟨current, lease, -, -, -, hreplaces, -⟩
    · rw [hsame]
      exact hok
    · exact ⟨hreplaces.stored hok.stored, fun entry hentry => (hok.begun entry hentry).replaced hreplaces⟩
  | ended hstops => exact ⟨hok.stored, fun entry hentry => hok.begun entry (hstops hentry)⟩
  | reap hreaped hstops =>
    refine ⟨hok.stored.reaped hreaped, fun entry hentry => ?_⟩
    rw [hstops] at hentry
    cases hentry
  | grow more => exact ⟨hok.stored, hok.begun⟩
  | elsewhere hstored hsame => exact ⟨hstored, fun entry hentry => (hok.begun entry hentry).congr hsame⟩

/-! ## The fence -/

theorem Asked.fenced {files' : ActiveFiles} {trace : Bytes} (hasked : Asked c h a input p files files')
    (hof : EventOf E x h a) (hreads : ReadsTrace c h trace) (hstored : Stored E files) :
    Step (x.agentId = js "main") (x.Last E trace) (RootLive E x files) (phaseAt E files p) (toldAct h.event a.turnId)
      (phaseAt E files' p) := by
  rcases hasked with rfl | ⟨state, intent, extensions, lease, hasks, hreplaces⟩
  · exact .late
  · have hstep := hasks.fenced hof hreads
    rw [hof.agentId, hof.agent, hstored.shown p] at hstep
    rw [hreplaces.phase]
    exact hstep

theorem phaseAt_congr {files' : ActiveFiles} (hsame : files' p = files p) : phaseAt E files' p = phaseAt E files p := by
  rw [phaseAt, committed, hsame, phaseAt, committed]

theorem isIdle_state {lease : ActiveLeaseV1 E} (h : lease.state = js "idle") : isIdle lease.json = true := by
  rw [ActiveLeaseV1.state, textAt] at h
  split at h
  · next s hs => rw [isIdle, hs, h, equalsText, beq_self_eq_true]
  · exact absurd h (by decide)

/-- What a move tells of the actor is a step of the fence, and the ledger is the trace. -/
theorem CodexMove.fenced {w w' : CodexWorld} {label : CodexLabel} {act : Act JsString}
    (hnamed : actorPath E (x.key E) = .ok p) (hok : w.Ok E x p) (hmove : CodexMove E x p w label w')
    (hact : label.act = some act) : w'.trace = w.trace ∧
      Step (x.agentId = js "main") (x.Last E w.trace) (RootLive E x w.files) (phaseAt E w.files p) act
        (phaseAt E w'.files p) := by
  cases hmove with
  | @event c h a input message hof hreads hstop =>
    cases hact
    exact ⟨rfl, (@dispatch_asked E c h a w.files p input (hof.key ▸ hnamed) hstop message).fenced hof hreads hok.stored⟩
  | @beginStop c h a input hof hreads hstop =>
    cases hact
    exact ⟨rfl, (@beginStop_asked E c h a w.files p input (hof.key ▸ hnamed) hstop).fenced hof hreads hok.stored⟩
  | @continueStop c h entry hbegun =>
    cases hact
    refine ⟨rfl, ?_⟩
    have hknown := hok.begun _ hbegun
    rcases @continueStop_cases E x p c h w.files entry hnamed hok.stored hknown with
      ⟨hsame, -⟩ | ⟨current, lease, hcurrent, hrevision, -, hreplaces, -⟩
    · rw [hsame]
      exact .late
    · obtain ⟨current', hcurrent', -, hclosed⟩ := hknown.later
      rw [hcurrent] at hcurrent'
      cases hcurrent'
      have hmain : x.agentId = js "main" := by
        have hkey := congrArg ActiveActorKey.agentId hknown.key
        exact hkey.symm.trans hknown.main
      rw [hreplaces.phase, if_neg (by decide), phaseAt, hcurrent, Option.map_some, phaseOf, (hclosed hrevision).2,
        hknown.turn]
      exact .resume hmain
  | @reap now files hreaped hstops =>
    cases hact
    refine ⟨rfl, ?_⟩
    rcases hreaped p with hsame | ⟨hnone, current, hcurrent, hidle, -⟩
    · rw [phaseAt_congr hsame]
      exact .late
    · have hbefore : phaseAt E w.files p = .closed (textAt? "turn_id" current.json) := by
        rw [phaseAt, hcurrent, Option.map_some, phaseOf, leasePhase, if_pos (isIdle_state hidle)]
      have hafter : phaseAt E files p = .absent := by
        rw [phaseAt, committed, hnone]
        rfl
      rw [hbefore, hafter]
      exact .reap
  | ended hstops => cases hact
  | grow more => cases hact
  | elsewhere hstored hsame => cases hact

/-- What is told of nobody leaves the record as it is. -/
theorem CodexMove.quiet {w w' : CodexWorld} {label : CodexLabel} (hmove : CodexMove E x p w label w')
    (hact : label.act = none) : phaseAt E w'.files p = phaseAt E w.files p := by
  cases hmove with
  | event hof hreads hstop => cases hact
  | beginStop hof hreads hstop => cases hact
  | continueStop hbegun => cases hact
  | reap hreaped hstops => cases hact
  | ended hstops => rfl
  | grow more => rfl
  | elsewhere hstored hsame => exact phaseAt_congr hsame

/-! ## Runs -/

variable (E x p) in
/-- A run of moves that meet a condition. -/
inductive CodexRun (Q : CodexWorld → CodexLabel → CodexWorld → Prop) : CodexWorld → CodexWorld → Prop
  | refl {w : CodexWorld} : CodexRun Q w w
  | step {w₁ w₂ w₃ : CodexWorld} {label : CodexLabel} (hrun : CodexRun Q w₁ w₂) (hmove : CodexMove E x p w₂ label w₃)
      (hmeets : Q w₂ label w₃) : CodexRun Q w₁ w₃

/-- Any move. -/
def AnyMove (_ : CodexWorld) (_ : CodexLabel) (_ : CodexWorld) : Prop := True

variable {Q : CodexWorld → CodexLabel → CodexWorld → Prop}

theorem CodexRun.ok {w w' : CodexWorld} (hnamed : actorPath E (x.key E) = .ok p) (hrun : CodexRun E x p Q w w')
    (hok : w.Ok E x p) : w'.Ok E x p := by
  induction hrun with
  | refl => exact hok
  | step _ hmove _ ih => exact hmove.ok hnamed ih

variable (E) in
/-- No Stop is between its changes. -/
structure CodexWorld.Fresh (w : CodexWorld) : Prop where
  stored : Stored E w.files
  stops : w.stops = []

theorem CodexWorld.Fresh.ok {w : CodexWorld} (hfresh : w.Fresh E) : w.Ok E x p := by
  refine ⟨hfresh.stored, fun entry hentry => ?_⟩
  rw [hfresh.stops] at hentry
  cases hentry

/-- **Every move is a step of the fence**, and the ledger is the trace: whatever is told of an actor, in whatever order,
with Stops between their two changes, its record takes no other step. -/
theorem codex_fenced {w₀ w w' : CodexWorld} {label : CodexLabel} (hnamed : actorPath E (x.key E) = .ok p)
    (hfresh : w₀.Fresh E) (hrun : CodexRun E x p AnyMove w₀ w) (hmove : CodexMove E x p w label w') :
    (label.act = none ∧ phaseAt E w'.files p = phaseAt E w.files p) ∨ ∃ act, label.act = some act ∧
      Step (x.agentId = js "main") (x.Last E w.trace) (RootLive E x w.files) (phaseAt E w.files p) act
        (phaseAt E w'.files p) := by
  cases hact : label.act with
  | none => exact .inl ⟨rfl, hmove.quiet hact⟩
  | some act => exact .inr ⟨act, rfl, (hmove.fenced hnamed (hrun.ok hnamed hfresh.ok) hact).2⟩

/-! ## Turns that are over -/

variable (E x) in
/-- The move does not begin the turn again: its act does not, and neither does the trace. -/
def Calm (t : JsString) (w : CodexWorld) (label : CodexLabel) (w' : CodexWorld) : Prop :=
  (∀ act, label.act = some act → ¬ act.Reopens (x.Last E w.trace) t) ∧
    ∀ turns, startedTurns E w'.trace = startedTurns E w.trace ++ turns → ∀ native ∈ turns, x.turn E native ≠ t

/-- The turns that were started go on with those that the move has started. -/
theorem CodexMove.started {w w' : CodexWorld} {label : CodexLabel} (hmove : CodexMove E x p w label w') :
    ∃ turns, startedTurns E w'.trace = startedTurns E w.trace ++ turns := by
  cases hmove with
  | grow more => exact startedTurns_append _ _
  | event hof hreads hstop => exact ⟨[], by simp⟩
  | beginStop hof hreads hstop => exact ⟨[], by simp⟩
  | continueStop hbegun => exact ⟨[], by simp⟩
  | ended hstops => exact ⟨[], by simp⟩
  | reap hreaped hstops => exact ⟨[], by simp⟩
  | elsewhere hstored hsame => exact ⟨[], by simp⟩

theorem Calm.last {t : JsString} {w w' : CodexWorld} {label : CodexLabel} (hcalm : Calm E x t w label w')
    (hmove : CodexMove E x p w label w') (hlast : x.Last E w'.trace t) : x.Last E w.trace t := by
  obtain ⟨turns, hturns⟩ := hmove.started
  rw [CodexActor.Last, hturns, List.getLast?_append] at hlast
  cases hnew : turns.getLast? with
  | none =>
    rw [hnew, Option.none_or] at hlast
    exact hlast
  | some native =>
    rw [hnew, Option.some_or, Option.map_some] at hlast
    exact absurd (Option.some.inj hlast) (hcalm.2 turns hturns native (List.mem_of_getLast? hnew))

/-- What the move tells of the actor names the turn. -/
def OnTurn (t : JsString) (_ : CodexWorld) (label : CodexLabel) (_ : CodexWorld) : Prop :=
  ∀ act, label.act = some act → act.Names t

theorem CodexRun.ofTurn {t : JsString} {w w' : CodexWorld} (hnamed : actorPath E (x.key E) = .ok p)
    (hrun : CodexRun E x p (OnTurn t) w w') (hok : w.Ok E x p) (h : OfTurn t (phaseAt E w.files p)) :
    OfTurn t (phaseAt E w'.files p) := by
  induction hrun with
  | refl => exact h
  | @step w₂ w₃ label hrun hmove hnames ih =>
    cases hact : label.act with
    | none =>
      rw [hmove.quiet hact]
      exact ih
    | some act => exact (hmove.fenced hnamed (hrun.ok hnamed hok) hact).2.ofTurn ih (hnames act hact)

theorem CodexRun.closed {t : JsString} {w w' : CodexWorld} (hnamed : actorPath E (x.key E) = .ok p)
    (hchild : x.agentId ≠ js "main") (hrun : CodexRun E x p (OnTurn t) w w') (hok : w.Ok E x p)
    (h : phaseAt E w.files p = .closed (some t)) : phaseAt E w'.files p = .closed (some t) := by
  induction hrun with
  | refl => exact h
  | @step w₂ w₃ label hrun hmove hnames ih =>
    cases hact : label.act with
    | none => rw [hmove.quiet hact, ih]
    | some act =>
      obtain ⟨-, hstep⟩ := hmove.fenced hnamed (hrun.ok hnamed hok) hact
      rw [ih] at hstep
      exact hstep.closed hchild (hnames act hact)

/-- The end of the turn of a child, when it is told without a failure: the lease is idle for that turn. -/
theorem subagentStop_closed {t : JsString} {message : Option JsString} {result : CodexHookResult}
    (hnamed : actorPath E (x.key E) = .ok p) (hstored : Stored E files) (hof : EventOf E x h a)
    (hevent : h.event = js "SubagentStop") (hturn : a.turnId = some t) (hstart : OfTurn t (phaseAt E files p))
    (hresult : (dispatch E c h a input message files).2 = .ok result) :
    phaseAt E (dispatch E c h a input message files).1 p = .closed (some t) := by
  rw [← hof.key] at hnamed
  unfold dispatch at hresult ⊢
  dsimp only at hresult ⊢
  rw [if_neg (by rw [hevent]; decide), if_neg (by rw [hevent]; decide), if_pos hevent] at hresult ⊢
  cases hsettled : (settle E c a (staleSubagentStop E c h a) (fun _ => codexIdle E a) files).2 with
  | error e =>
    rw [hsettled] at hresult
    cases hresult
  | ok settled =>
    cases settled with
    | lease lease =>
      have hreturned := update_returned hnamed hsettled
      obtain ⟨written, hupdates⟩ := hreturned.updates
      obtain ⟨-, rfl⟩ := unlessStale_write hupdates.decided
      have hmembers := (codexIdle_of a).kept hupdates.kept
      have hreplaces : Replaces E a p files (settle E c a (staleSubagentStop E c h a) (fun _ => codexIdle E a) files).1
          "idle" none none lease := ⟨hupdates.commits, hmembers, hreturned.after⟩
      rw [hreplaces.phase, if_pos rfl, hturn]
    | ignored reason =>
      -- what names this turn, or no turn, is not too late for it
      obtain ⟨-, hdecided⟩ := update_ignored hnamed hsettled
      simp only [unlessStale, Outcome.bind_ok] at hdecided
      obtain ⟨stale, hstale, hdecided⟩ := hdecided
      cases stale with
      | none => cases hdecided
      | some own =>
        unfold staleSubagentStop at hstale
        split at hstale
        · cases hstale
        · next own' hown =>
          obtain ⟨s, u, hs, hu, hne⟩ := staleTurnDecision_some hown
          rw [hstored.shown p, ← phaseAt] at hs
          rw [hturn] at hu
          cases hu
          rcases hstart with hphase | hphase | hphase
          · rw [hphase] at hs
            cases hs
          · rw [hphase] at hs
            exact absurd (Option.some.inj hs).symm hne
          · rw [hphase] at hs
            exact absurd (Option.some.inj hs).symm hne

/-- **The events of one turn of a child converge.** They may come in any order: if the end of the turn is among them and
is told without a failure, the lease is idle for that turn in the end. -/
theorem child_converges {t : JsString} {w₀ w w' : CodexWorld} {message : Option JsString} {result : CodexHookResult}
    (hnamed : actorPath E (x.key E) = .ok p) (hchild : x.agentId ≠ js "main") (hfresh : w₀.Fresh E)
    (hstart : OfTurn t (phaseAt E w₀.files p)) (hbefore : CodexRun E x p (OnTurn t) w₀ w) (hof : EventOf E x h a)
    (hevent : h.event = js "SubagentStop") (hturn : a.turnId = some t)
    (hresult : (dispatch E c h a input message w.files).2 = .ok result)
    (hafter : CodexRun E x p (OnTurn t) { w with files := (dispatch E c h a input message w.files).1 } w') :
    phaseAt E w'.files p = .closed (some t) := by
  have hok := hbefore.ok hnamed hfresh.ok
  have hclosed := subagentStop_closed hnamed hok.stored hof hevent hturn (hbefore.ofTurn hnamed hfresh.ok hstart) hresult
  have hstop : h.event ≠ js "Stop" := by
    rw [hevent]
    decide
  have hasked := @dispatch_asked E c h a w.files p input (hof.key ▸ hnamed) hstop message
  have hnext : CodexWorld.Ok E x p { w with files := (dispatch E c h a input message w.files).1 } :=
    ⟨hasked.stored hok.stored, fun entry hentry => (hok.begun entry hentry).asked hasked⟩
  exact hafter.closed hnamed hchild hnext hclosed

end

/-! ## Late tools -/

def runFile : FileState := { dev := 0, ino := 0, birthtimeNs := 0, mtimeNs := 0, bytes := [] }

def runCall : CodexHookCall flightHost where
  directory := []
  admission := .ok { joined := true, initiated := false }
  store := { now := some 1000 }
  root := { now := some 1000 }
  again := { now := some 1000 }
  traces := fun _ => { opened := .missing, chunks := [], final := runFile }
  startedAt := js "1970-01-01T00:00:01.000Z"
  nudge := .ok true

/-- An event of an agent, in a turn. -/
def runInput (event agentId turn : String) : CodexHookInput where
  event := js event
  nativeSessionId := js "s"
  projectRoot := [js "repo"]
  tracePath := none
  agentTracePath := none
  nativeTurnId := some (js turn)
  nativeAgentId := none
  agentId := js agentId

def runIdentity (agentId turn : String) : CodexIdentity := codexIdentity flightHost (runInput "" agentId turn) none

def runActor (agentId : String) : CodexActor := ⟨js "s", js agentId⟩

/-- What an event does. -/
def runEvent (event agentId turn : String) (files : ActiveFiles) : ActiveFiles × Except ActiveFailure CodexHookResult :=
  dispatch flightHost runCall (runInput event agentId turn) (runIdentity agentId turn) .null none files

def runPath : ActivePath :=
  ⟨js "codex", js "actor_e3b0c44298fc1c149afbf4c8996fb92427ae41e4649b934ca495991b7852b855.json"⟩

def runWorld (files : ActiveFiles) : CodexWorld := { files, trace := [] }

theorem runMain_named : actorPath flightHost ((runActor "main").key flightHost) = .ok runPath := by decide +kernel

theorem runChild_named : actorPath flightHost ((runActor "k").key flightHost) = .ok runPath := by decide +kernel

theorem runWorld_fresh : (runWorld fun _ => none).Fresh flightHost := by
  refine ⟨fun p lease hlease => ?_, rfl⟩
  cases hlease

theorem runInput_of (event agentId turn : String) :
    EventOf flightHost (runActor agentId) (runInput event agentId turn) (runIdentity agentId turn) :=
  ⟨rfl, rfl, none, rfl⟩

theorem runIdentity_turn (agentId turn : String) :
    (runIdentity agentId turn).turnId = some ((runActor agentId).turn flightHost (js turn)) := rfl

theorem runInput_reads (event agentId turn : String) (trace : Bytes) :
    ReadsTrace runCall (runInput event agentId turn) trace := by
  rintro path (hpath | hpath)
  · cases hpath
  · cases hpath

/-- An event that is no prompt and no Stop. -/
theorem runEvent_move {event agentId turn : String} (files : ActiveFiles) (hstop : js event ≠ js "Stop")
    (hprompt : js event ≠ js "UserPromptSubmit") :
    CodexMove flightHost (runActor agentId) runPath (runWorld files)
      (.told (js event) (runIdentity agentId turn).turnId) (runWorld (runEvent event agentId turn files).1) := by
  have hmove := @CodexMove.event flightHost (runActor agentId) runPath (runWorld files) runCall
    (runInput event agentId turn) (runIdentity agentId turn) .null none (runInput_of event agentId turn)
    (runInput_reads event agentId turn _) hstop
  have hnone : promptOf (runInput event agentId turn) (runIdentity agentId turn) .null = [] := by
    rw [promptOf]
    exact if_neg hprompt
  rw [hnone] at hmove
  exact hmove

/-- The first event of a session is a step of the fence. -/
theorem codex_fenced_first : ∃ act, (CodexLabel.told (js "SessionStart") (runIdentity "main" "t").turnId).act = some act ∧
    Step ((runActor "main").agentId = js "main") ((runActor "main").Last flightHost [])
      (RootLive flightHost (runActor "main") (runWorld fun _ => none).files)
      (phaseAt flightHost (runWorld fun _ => none).files runPath) act
      (phaseAt flightHost (runWorld (runEvent "SessionStart" "main" "t" fun _ => none).1).files runPath) := by
  have hmove := @runEvent_move "SessionStart" "main" "t" (fun _ => none) (by decide) (by decide)
  have h := @codex_fenced flightHost (runActor "main") runPath _ _ _ _ runMain_named runWorld_fresh .refl hmove
  rcases h with ⟨hnone, -⟩ | hstep
  · cases hnone
  · exact hstep

theorem runStop_ok : (runEvent "SubagentStop" "k" "t" fun _ => none).2.toOption.isSome = true := by decide +kernel

/-- A child whose last tool ends after its turn. -/
theorem child_converges_late :
    phaseAt flightHost (runWorld
      (runEvent "PreToolUse" "k" "t" (runEvent "SubagentStop" "k" "t" fun _ => none).1).1).files runPath =
      .closed (some ((runActor "k").turn flightHost (js "t"))) := by
  obtain ⟨result, hresult⟩ := Option.isSome_iff_exists.1 runStop_ok
  have hlate := @runEvent_move "PreToolUse" "k" "t" (runEvent "SubagentStop" "k" "t" fun _ => none).1 (by decide)
    (by decide)
  refine @child_converges flightHost (runActor "k") runPath runCall (runInput "SubagentStop" "k" "t")
    (runIdentity "k" "t") .null ((runActor "k").turn flightHost (js "t")) (runWorld fun _ => none)
    (runWorld fun _ => none) _ none result runChild_named (by decide) runWorld_fresh (.inl rfl) .refl
    (runInput_of "SubagentStop" "k" "t") rfl (runIdentity_turn "k" "t") (Outcome.toOption_some.1 hresult)
    (CodexRun.refl.step hlate ?_)
  rintro act hact
  cases hact
  exact runIdentity_turn "k" "t"

end Barbaro.Hooks
