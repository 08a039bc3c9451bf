import Barbaro.Hooks.CodexRuns

/-!
# Stops of a Codex actor, and what belongs to a turn

A Stop idles the lease first and reopens it if there is something to announce. In between anything
may happen to the lease, and the Stop must not touch what is newer than its own change. What it
reopens carries the intent and the marker of its turn, and so does every other lease.

* `stop_reopens`: a Stop returns that it goes on exactly when it has reopened the lease it had idled.
* `turn_bound`: intents and markers belong to the turn of the lease.
* `handled_run`: what the hook does is a run of moves.
-/

namespace Barbaro.Hooks

open Active Codex TurnFence

section
variable {E : Host} {x : CodexActor} {p : ActivePath} {c : CodexHookCall E} {h : CodexHookInput} {a : CodexIdentity}
  {input : Json} {files : ActiveFiles}

/-! ## Stops -/

variable (E x p c) in
/-- The Stop has reopened the lease it had idled. -/
structure Reopened (entry : PendingStop) (files files' : ActiveFiles) : Prop where
  announced : c.nudge = .ok true
  /-- The lease is as the Stop has left it. -/
  untouched : files p = entry.idled
  closed : phaseAt E files p = .closed (some entry.stop.turnId)
  live : phaseAt E files' p = .live (some entry.stop.turnId)
  members : ∃ lease, committed E files' p = some lease ∧ lease.json.get (js "intent") = entry.stop.priorIntent ∧
    lease.json.get (js "extensions") = some (stopContinuationExtensions entry.stop.turnId)
  others : ∀ q, q ≠ p → files' q = files q

theorem continueStop_reopened {entry : PendingStop} (hnamed : actorPath E (x.key E) = .ok p) (hstored : Stored E files)
    (hbegun : Begun E x p files entry) :
    ((continueStop E c h entry.actor entry.stop files).1 = files ∧
        ∀ result, (continueStop E c h entry.actor entry.stop files).2 = .ok result → result.stopReason = false) ∨
      Reopened E p c entry files (continueStop E c h entry.actor entry.stop files).1 ∧
        ∃ result, (continueStop E c h entry.actor entry.stop files).2 = .ok result ∧ result.stopReason = true := by
  rcases continueStop_cases (c := c) (h := h) hnamed hstored hbegun with
    ⟨hsame, hresult⟩ | ⟨current, lease, hcurrent, hrevision, hnudge, hreplaces, hresult⟩
  · refine .inl ⟨hsame, fun result hok => ?_⟩
    rw [hresult result hok, hbegun.unblocked]
  · obtain ⟨current', hcurrent', -, hidled⟩ := hbegun.later
    rw [hcurrent] at hcurrent'
    cases hcurrent'
    obtain ⟨huntouched, hclosed⟩ := hidled hrevision
    refine .inr ⟨⟨hnudge, huntouched, ?_, ?_, ?_, ?_⟩, _, hresult, rfl⟩
    · rw [phaseAt, hcurrent, Option.map_some, phaseOf, hclosed]
    · rw [hreplaces.phase, if_neg (by decide), hbegun.turn]
    · exact ⟨_, hreplaces.committed, hreplaces.members.intent, hreplaces.members.extensions⟩
    · intro q hq
      rw [hreplaces.after, Function.update_of_ne hq]

/-- **A Stop returns that it goes on exactly when it has reopened the lease it had idled**, whatever has happened since
it has idled it: then no byte of the lease has changed in between, and otherwise no lease changes at all. -/
theorem stop_reopens {w₀ w : CodexWorld} {entry : PendingStop} (hnamed : actorPath E (x.key E) = .ok p)
    (hfresh : w₀.Fresh E) (hrun : CodexRun E x p AnyMove w₀ w) (hbegun : entry ∈ w.stops) :
    ((∃ result, (continueStop E c h entry.actor entry.stop w.files).2 = .ok result ∧ result.stopReason = true) ↔
        Reopened E p c entry w.files (continueStop E c h entry.actor entry.stop w.files).1) ∧
      (¬ Reopened E p c entry w.files (continueStop E c h entry.actor entry.stop w.files).1 →
        (continueStop E c h entry.actor entry.stop w.files).1 = w.files) := by
  have hok := hrun.ok hnamed hfresh.ok
  have hcases := continueStop_reopened (c := c) (h := h) hnamed hok.stored (hok.begun entry hbegun)
  rcases hcases with ⟨hsame, hquiet⟩ | ⟨hreopened, hresult⟩
  · have hnot : ¬ Reopened E p c entry w.files (continueStop E c h entry.actor entry.stop w.files).1 := by
      rw [hsame]
      intro hreopened
      have hboth := hreopened.closed.symm.trans hreopened.live
      cases hboth
    refine ⟨⟨?_, fun hreopened => absurd hreopened hnot⟩, fun _ => hsame⟩
    rintro ⟨result, hresult, hblocks⟩
    rw [hquiet result hresult] at hblocks
    cases hblocks
  · exact ⟨⟨fun _ => hreopened, fun _ => hresult⟩, fun hnot => absurd hreopened hnot⟩

/-! ## What belongs to a turn -/

/-- The intent of a lease is what a prompt of its turn told, and its marker is one of its turn. -/
structure BoundTo (prompts : List (Option JsString × Json)) (turn : Option JsString) (intent extensions : Option Json) :
    Prop where
  intent : ∀ told, intent = some told → (turn, told) ∈ prompts
  extensions : ∀ marker, extensions = some marker → ∃ t, turn = some t ∧ marker = stopContinuationExtensions t

def LeaseBound (prompts : List (Option JsString × Json)) (lease : Json) : Prop :=
  BoundTo prompts (textAt? "turn_id" lease) (lease.get (js "intent")) (lease.get (js "extensions"))

variable (E p) in
structure CodexWorld.Bound (w : CodexWorld) : Prop where
  lease : ∀ current, committed E w.files p = some current → LeaseBound w.prompts current.json
  stops : ∀ entry ∈ w.stops, ∀ told, entry.stop.priorIntent = some told → (some entry.stop.turnId, told) ∈ w.prompts

variable (E p) in
/-- A compaction finds no intent of another turn. -/
def NoCarry (w : CodexWorld) (label : CodexLabel) (_ : CodexWorld) : Prop :=
  ∀ event turn, label = .told event turn → isEvent ["PreCompact", "PostCompact"] event = true →
    ∀ current, committed E w.files p = some current →
      current.json.get (js "intent") = none ∨ textAt? "turn_id" current.json = turn

theorem BoundTo.mono {prompts : List (Option JsString × Json)} {turn : Option JsString} {intent extensions : Option Json}
    (hbound : BoundTo prompts turn intent extensions) (more : List (Option JsString × Json)) :
    BoundTo (prompts ++ more) turn intent extensions :=
  ⟨fun told htold => List.mem_append_left more (hbound.intent told htold), hbound.extensions⟩

theorem BoundTo.none {prompts : List (Option JsString × Json)} {turn : Option JsString} :
    BoundTo prompts turn none none := by
  refine ⟨?_, ?_⟩
  · rintro told ⟨⟩
  · rintro marker ⟨⟩

theorem sameTurnUpdate_some {key : String} {previous : Option Json} {v : Json}
    (hv : sameTurnUpdate a key previous = some v) :
    ∃ lease, previous = some lease ∧ textAt? "turn_id" lease = a.turnId ∧ lease.get (js key) = some v := by
  unfold sameTurnUpdate CodexIdentity.sameTurn at hv
  split at hv
  · next hsame =>
    simp only [Bool.and_eq_true, beq_iff_eq] at hsame
    cases previous with
    | none => cases hv
    | some lease => exact ⟨lease, rfl, hsame.2, hv⟩
  · cases hv

/-- **What an event asks for** is bound to its turn. -/
theorem Asks.bound {prompts : List (Option JsString × Json)} {previous : Option Json} {act : Act JsString}
    {state : String} {intent extensions : Option Json}
    (hasks : Asks c h a input files previous act state intent extensions)
    (hprevious : ∀ lease, previous = some lease → LeaseBound prompts lease)
    (hcarry : isEvent ["PreCompact", "PostCompact"] h.event = true → ∀ lease, previous = some lease →
      lease.get (js "intent") = none ∨ textAt? "turn_id" lease = a.turnId) :
    BoundTo (prompts ++ promptOf h a input) a.turnId intent extensions := by
  have hextensions : ∀ marker, sameTurnUpdate a "extensions" previous = some marker →
      ∃ t, a.turnId = some t ∧ marker = stopContinuationExtensions t := by
    intro marker hmarker
    obtain ⟨lease, hlease, hturn, hget⟩ := sameTurnUpdate_some hmarker
    rw [← hturn]
    exact (hprevious lease hlease).extensions marker hget
  cases hasks with
  | session => exact .none
  | start hok => exact .none
  | finish hok => exact .none
  | stop hok => exact .none
  | prompt hevent hok =>
    refine ⟨?_, ?_⟩
    · rintro told ⟨⟩
      refine List.mem_append_right prompts ?_
      rw [promptOf, if_pos hevent]
      exact List.mem_singleton.2 rfl
    · rintro marker ⟨⟩
  | tool hstate hok =>
    refine ⟨fun told htold => List.mem_append_left _ ?_, hextensions⟩
    obtain ⟨lease, hlease, hturn, hget⟩ := sameTurnUpdate_some htold
    rw [← hturn]
    exact (hprevious lease hlease).intent told hget
  | compact hevent hok =>
    refine ⟨fun told htold => List.mem_append_left _ ?_, hextensions⟩
    obtain ⟨lease, hlease, hget⟩ := Option.bind_eq_some_iff.1 htold
    rcases hcarry hevent lease hlease with hnone | hturn
    · rw [hnone] at hget
      cases hget
    · rw [← hturn]
      exact (hprevious lease hlease).intent told hget

theorem Replaces.bound {files' : ActiveFiles} {state : String} {intent extensions : Option Json} {lease : Json}
    {prompts : List (Option JsString × Json)} (h : Replaces E a p files files' state intent extensions lease)
    (hbound : BoundTo prompts a.turnId intent extensions) :
    ∀ current, Active.committed E files' p = some current → LeaseBound prompts current.json := by
  intro current hcurrent
  rw [h.committed] at hcurrent
  cases hcurrent
  rw [LeaseBound, h.members.turn, h.members.intent, h.members.extensions]
  exact hbound

theorem LeaseBound.mono {prompts : List (Option JsString × Json)} {lease : Json} (hbound : LeaseBound prompts lease)
    (more : List (Option JsString × Json)) : LeaseBound (prompts ++ more) lease := BoundTo.mono hbound more

theorem Asked.bound {files' : ActiveFiles} {prompts : List (Option JsString × Json)}
    (hasked : Asked c h a input p files files') (hstored : Stored E files)
    (hlease : ∀ current, committed E files p = some current → LeaseBound prompts current.json)
    (hcarry : isEvent ["PreCompact", "PostCompact"] h.event = true → ∀ current, committed E files p = some current →
      current.json.get (js "intent") = none ∨ textAt? "turn_id" current.json = a.turnId) :
    ∀ current, committed E files' p = some current → LeaseBound (prompts ++ promptOf h a input) current.json := by
  rcases hasked with rfl | ⟨state, intent, extensions, lease, hasks, hreplaces⟩
  · exact fun current hcurrent => (hlease current hcurrent).mono _
  · rw [hstored.shown p] at hasks
    refine hreplaces.bound (hasks.bound ?_ ?_)
    · intro previous hprevious
      obtain ⟨current, hcurrent, rfl⟩ := Option.map_eq_some_iff.1 hprevious
      exact hlease current hcurrent
    · intro hevent previous hprevious
      obtain ⟨current, hcurrent, rfl⟩ := Option.map_eq_some_iff.1 hprevious
      exact hcarry hevent current hcurrent

/-- What a Stop was shown, when it has settled. -/
theorem Settled.shown {lease : Json} {entry : PendingStop} (hsettled : Settled E p c h a input files lease entry)
    (hnamed : actorPath E a.key = .ok p) : shownLease E c a files = shownAt E files p := by
  have hreturned := update_returned hnamed hsettled.settled
  have hread : readSnapshot E c.store a.key files = .ok (committed E files p) := by
    unfold readSnapshot
    refine Outcome.bind_ok.2 ⟨p, hnamed, Outcome.bind_ok.2 ⟨_, hreturned.read, ?_⟩⟩
    rw [if_neg]
    · rfl
    · rw [hreturned.own]
      decide
  rw [shownLease, hread]
  rfl

/-- A Stop carries on the intent of its own turn. -/
theorem begunStop_bound {prompts : List (Option JsString × Json)} {entry : PendingStop} (hof : EventOf E x h a)
    (hnamed : actorPath E (x.key E) = .ok p) (hstored : Stored E files)
    (hlease : ∀ current, committed E files p = some current → LeaseBound prompts current.json)
    (hentry : entry ∈ begunStop a p (beginStop E c h a input files)) :
    ∀ told, entry.stop.priorIntent = some told → (some entry.stop.turnId, told) ∈ prompts := by
  obtain ⟨lease, hsettled⟩ := begunStop_settled hentry
  intro told htold
  rw [hsettled.intent, hsettled.shown (hof.key ▸ hnamed), hstored.shown p] at htold
  split at htold
  · next hsame =>
    obtain ⟨previous, hprevious, hget⟩ := Option.bind_eq_some_iff.1 htold
    obtain ⟨current, hcurrent, rfl⟩ := Option.map_eq_some_iff.1 hprevious
    rw [hprevious, Bool.and_eq_true, beq_iff_eq, hsettled.turn] at hsame
    have hturn : textAt? "turn_id" current.json = some entry.stop.turnId := hsame.2
    rw [← hturn]
    exact (hlease current hcurrent).intent told hget
  · cases htold

theorem promptOf_stop (hstop : h.event = js "Stop") : promptOf h a input = [] := by
  rw [promptOf, if_neg]
  rw [hstop]
  decide

/-- What belongs to a turn stays with it, in every move. -/
theorem CodexMove.bound {w w' : CodexWorld} {label : CodexLabel} (hnamed : actorPath E (x.key E) = .ok p)
    (hmove : CodexMove E x p w label w') (hok : w.Ok E x p) (hcarry : NoCarry E p w label w') (hbound : w.Bound E p) :
    w'.Bound E p := by
  cases hmove with
  | @event c h a input message hof hreads hstop =>
    have hasked := @dispatch_asked E c h a w.files p input (hof.key ▸ hnamed) hstop message
    exact ⟨hasked.bound hok.stored hbound.lease (hcarry h.event a.turnId rfl),
      fun entry hentry told htold => List.mem_append_left _ (hbound.stops entry hentry told htold)⟩
  | @beginStop c h a input hof hreads hstop =>
    have hasked := @beginStop_asked E c h a w.files p input (hof.key ▸ hnamed) hstop
    refine ⟨?_, fun entry hentry => ?_⟩
    · have hlease := hasked.bound hok.stored hbound.lease (hcarry h.event a.turnId rfl)
      rw [promptOf_stop hstop, List.append_nil] at hlease
      exact hlease
    · rcases List.mem_append.1 hentry with hold | hnew
      · exact hbound.stops entry hold
      · exact begunStop_bound hof hnamed hok.stored hbound.lease hnew
  | @continueStop c h entry hbegun =>
    have hknown := hok.begun entry hbegun
    rcases @continueStop_cases E x p c h w.files entry hnamed hok.stored hknown with
      ⟨hsame, -⟩ | ⟨current, lease, -, -, -, hreplaces, -⟩
    · rw [hsame]
      exact hbound
    · refine ⟨hreplaces.bound ⟨?_, ?_⟩, hbound.stops⟩
      · rw [hknown.turn]
        exact hbound.stops entry hbegun
      · rintro marker ⟨⟩
        exact ⟨_, hknown.turn, rfl⟩
  | ended hstops => exact ⟨hbound.lease, fun entry hentry => hbound.stops entry (hstops hentry)⟩
  | @reap now files hreaped hstops =>
    refine ⟨fun current hcurrent => ?_, hbound.stops⟩
    change committed E files p = some current at hcurrent
    rcases hreaped p with hsame | ⟨hnone, -⟩
    · rw [committed, hsame] at hcurrent
      exact hbound.lease current hcurrent
    · rw [committed, hnone] at hcurrent
      cases hcurrent
  | grow more => exact ⟨hbound.lease, hbound.stops⟩
  | @elsewhere files hstored hsame =>
    refine ⟨fun current hcurrent => ?_, hbound.stops⟩
    change committed E files p = some current at hcurrent
    rw [committed, hsame] at hcurrent
    exact hbound.lease current hcurrent

theorem CodexRun.bound {w w' : CodexWorld} (hnamed : actorPath E (x.key E) = .ok p)
    (hrun : CodexRun E x p (NoCarry E p) w w') (hok : w.Ok E x p) (hbound : w.Bound E p) : w'.Bound E p := by
  induction hrun with
  | refl => exact hbound
  | step hrun hmove hcarry ih => exact hmove.bound hnamed (hrun.ok hnamed hok) hcarry ih

/-- **What belongs to a turn does not cross to another one.** In every lease of an actor the intent is what a prompt of
the turn of the lease told, and the marker of a continuation is the one of that turn, as long as no compaction finds the
intent of another turn. -/
theorem turn_bound {w₀ w : CodexWorld} (hnamed : actorPath E (x.key E) = .ok p) (hfresh : w₀.Fresh E)
    (habsent : committed E w₀.files p = none) (hrun : CodexRun E x p (NoCarry E p) w₀ w) :
    ∀ current, committed E w.files p = some current →
      (∀ told, current.json.get (js "intent") = some told → (textAt? "turn_id" current.json, told) ∈ w.prompts) ∧
      ∀ marker, current.json.get (js "extensions") = some marker →
        ∃ t, textAt? "turn_id" current.json = some t ∧ marker = stopContinuationExtensions t := by
  have hstart : w₀.Bound E p := by
    refine ⟨fun current hcurrent => ?_, fun entry hentry => ?_⟩
    · rw [habsent] at hcurrent
      cases hcurrent
    · rw [hfresh.stops] at hentry
      cases hentry
  intro current hcurrent
  obtain ⟨hintent, hextensions⟩ := (hrun.bound hnamed hfresh.ok hstart).lease current hcurrent
  exact ⟨hintent, hextensions⟩

/-! ## The hook -/

theorem CodexRun.trans {Q : CodexWorld → CodexLabel → CodexWorld → Prop} {w₁ w₂ w₃ : CodexWorld}
    (h : CodexRun E x p Q w₁ w₂) (h' : CodexRun E x p Q w₂ w₃) : CodexRun E x p Q w₁ w₃ := by
  induction h' with
  | refl => exact h
  | step _ hmove hmeets ih => exact ih.step hmove hmeets

end

/-! ## A Stop, a prompt and the end of a session -/

/-- The first change of a Stop. -/
def runStop (files : ActiveFiles) : ActiveFiles × Except ActiveFailure (CodexHookResult × Option StopContinuation) :=
  beginStop flightHost runCall (runInput "Stop" "main" "t") (runIdentity "main" "t") .null files

/-- The world after it. -/
def stoppedWorld : CodexWorld where
  files := (runStop (runWorld fun _ => none).files).1
  trace := (runWorld fun _ => none).trace
  stops := (runWorld fun _ => none).stops ++
    begunStop (runIdentity "main" "t") runPath (runStop (runWorld fun _ => none).files)
  prompts := (runWorld fun _ => none).prompts

theorem stoppedWorld_pending : stoppedWorld.stops.isEmpty = false := by decide +kernel

theorem runStop_move : CodexMove flightHost (runActor "main") runPath (runWorld fun _ => none)
    (.told (js "Stop") (runIdentity "main" "t").turnId) stoppedWorld := by
  have hmove := @CodexMove.beginStop flightHost (runActor "main") runPath (runWorld fun _ => none) runCall
    (runInput "Stop" "main" "t") (runIdentity "main" "t") .null (runInput_of "Stop" "main" "t")
    (runInput_reads "Stop" "main" "t" _) rfl
  unfold stoppedWorld runStop
  exact hmove

/-- A Stop with something to announce. -/
theorem stop_reopens_first : ∃ entry ∈ stoppedWorld.stops,
    ((∃ result, (continueStop flightHost runCall (runInput "Stop" "main" "t") entry.actor entry.stop stoppedWorld.files).2 =
          .ok result ∧ result.stopReason = true) ↔
        Reopened flightHost runPath runCall entry stoppedWorld.files
          (continueStop flightHost runCall (runInput "Stop" "main" "t") entry.actor entry.stop stoppedWorld.files).1) ∧
      (¬ Reopened flightHost runPath runCall entry stoppedWorld.files
          (continueStop flightHost runCall (runInput "Stop" "main" "t") entry.actor entry.stop stoppedWorld.files).1 →
        (continueStop flightHost runCall (runInput "Stop" "main" "t") entry.actor entry.stop stoppedWorld.files).1 =
          stoppedWorld.files) := by
  have hnonempty : stoppedWorld.stops ≠ [] := List.isEmpty_eq_false_iff.1 stoppedWorld_pending
  obtain ⟨entry, hentry⟩ := List.exists_mem_of_ne_nil _ hnonempty
  have hrun := CodexRun.refl.step (Q := AnyMove) runStop_move trivial
  exact ⟨entry, hentry, @stop_reopens flightHost (runActor "main") runPath runCall (runInput "Stop" "main" "t")
    (runWorld fun _ => none) stoppedWorld entry runMain_named runWorld_fresh hrun hentry⟩

/-- The world after a prompt. -/
def promptedWorld : CodexWorld where
  files := (dispatch flightHost runCall (runInput "UserPromptSubmit" "main" "t") (runIdentity "main" "t") .null none
    fun _ => none).1
  trace := []
  prompts := promptOf (runInput "UserPromptSubmit" "main" "t") (runIdentity "main" "t") .null

theorem promptedWorld_lease : (committed flightHost promptedWorld.files runPath).isSome = true := by decide +kernel

/-- The intent of the first prompt is of its turn. -/
theorem turn_bound_first : ∃ current, committed flightHost promptedWorld.files runPath = some current ∧
    (∀ told, current.json.get (js "intent") = some told →
      (textAt? "turn_id" current.json, told) ∈ promptedWorld.prompts) ∧
    ∀ marker, current.json.get (js "extensions") = some marker →
      ∃ t, textAt? "turn_id" current.json = some t ∧ marker = stopContinuationExtensions t := by
  have hmove : CodexMove flightHost (runActor "main") runPath (runWorld fun _ => none) _ promptedWorld :=
    @CodexMove.event flightHost (runActor "main") runPath (runWorld fun _ => none) runCall
      (runInput "UserPromptSubmit" "main" "t") (runIdentity "main" "t") .null none
      (runInput_of "UserPromptSubmit" "main" "t") (runInput_reads "UserPromptSubmit" "main" "t" []) (by decide)
  obtain ⟨current, hcurrent⟩ := Option.isSome_iff_exists.1 promptedWorld_lease
  refine ⟨current, hcurrent, @turn_bound flightHost (runActor "main") runPath _ promptedWorld runMain_named runWorld_fresh
    rfl (CodexRun.refl.step hmove ?_) current hcurrent⟩
  intro event turn hlabel hcompact
  cases hlabel
  exact absurd hcompact (by decide)

end Barbaro.Hooks
