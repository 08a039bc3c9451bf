import Barbaro.Hooks.CodexActivity
import Barbaro.Lib.TurnFence
import Barbaro.Runner.WorkstreamStamp

/-!
# The turns of a Codex actor

The lease of an actor is a record that names its turn, and the trace of the actor is the ledger of
the turns that were started. Whatever the hooks are told, they take no other step than the fence
allows.

* `phaseAt`: what the lease of an actor says of its turn.
* `attest_last`: a turn that takes over is the one that the trace has started last.
* `Asks.fenced`: what an event asks for is a step of the fence.
* `dispatch_asked`, `beginStop_asked`: an event does what it asks for.
-/

namespace Barbaro.Active

section
variable {E : Host}

/-! ## Leases that the store has written -/

variable (E) in
/-- Every lease is one that the store can have written. -/
def Stored (files : ActiveFiles) : Prop :=
  ∀ p lease, committed E files p = some lease → lease.json.WellFormed E.float

theorem Stored.commit {files : ActiveFiles} {p : ActivePath} {lease : Json} (h : Stored E files)
    (hcommit : Commits E files p lease) : Stored E (Function.update files p (some (leaseBytes lease))) := by
  intro q current hcurrent
  by_cases hq : q = p
  · subst hq
    rw [committed_commit hcommit] at hcurrent
    cases hcurrent
    exact hcommit.wellFormed
  · rw [committed, Function.update_of_ne hq] at hcurrent
    exact h q current hcurrent

theorem Stored.reaped {now : ℤ} {files files' : ActiveFiles} (h : Stored E files) (hreaped : Reaped E now files files') :
    Stored E files' := by
  intro q current hcurrent
  rcases hreaped q with hsame | ⟨hnone, -⟩
  · rw [committed, hsame] at hcurrent
    exact h q current hcurrent
  · rw [committed, hnone] at hcurrent
    cases hcurrent

variable (E) in
/-- The lease at a path, as a decision is shown it. -/
def shownAt (files : ActiveFiles) (p : ActivePath) : Option Json :=
  (committed E files p).map fun current => cloneLease E current.json

theorem Stored.shown {files : ActiveFiles} (h : Stored E files) (p : ActivePath) :
    shownAt E files p = (committed E files p).map (·.json) := by
  unfold shownAt
  cases hcurrent : committed E files p with
  | none => rfl
  | some current => rw [Option.map_some, Option.map_some, cloneLease_eq (h p current hcurrent)]

/-! ## What a write writes -/

theorem replaceWithNext_cases {call : StoreCall} {p : ActivePath} {current : Option (ActiveLeaseV1 E)} {detached : Json}
    {ttlMs : ℤ} {files : ActiveFiles} : (replaceWithNext E call p current detached ttlMs files).1 = files ∨
      ∃ lease, nextLease E call current detached ttlMs = .ok lease ∧
        (replaceWithNext E call p current detached ttlMs files).2 = .ok lease := by
  unfold replaceWithNext
  split
  · exact .inl rfl
  · next lease hlease =>
    unfold atomicReplace
    split
    · next h =>
      left
      split at h
      · cases h
        rfl
      · cases h
    · exact .inr ⟨lease, hlease, rfl⟩

/-- **A write** changes nothing, or commits a lease with the members it was given. -/
theorem write_cases {call : StoreCall} {update : JsonInput E} {options : WriteOptions} {files : ActiveFiles} :
    (write E call update options files).1 = files ∨
      ∃ p lease, Commits E files p lease ∧ (∀ key, key ∉ generatedFields → lease.get (js key) = update.json.get (js key)) ∧
        (write E call update options files).1 = Function.update files p (some (leaseBytes lease)) := by
  unfold write
  dsimp only
  split
  · exact .inl rfl
  · next detached wanted p hprepared =>
    simp only [Outcome.bind_ok, Outcome.pure_ok, Prod.mk.injEq] at hprepared
    obtain ⟨-, -, -, -, -, -, detached', hdetached, p', hp, rfl, -, rfl⟩ := hprepared
    have hwrites := @writeLocked_writes E call files p' detached' wanted options.ttlMs
      (detachLease_ok update.wellFormed hdetached) hp
    have hkept : (writeLocked E call p' detached' wanted options.ttlMs files).1 = files ∨
        ∃ lease, (∀ key, key ∉ generatedFields → lease.get (js key) = update.json.get (js key)) ∧
          (writeLocked E call p' detached' wanted options.ttlMs files).2 = .ok lease := by
      unfold writeLocked
      split
      · exact .inl rfl
      · split
        · exact .inl rfl
        · split
          · exact .inl rfl
          · refine replaceWithNext_cases.imp_right ?_
            rintro ⟨lease, hnext, hlease⟩
            refine ⟨lease, fun key hkey => ?_, hlease⟩
            rw [nextLease_get hkey hnext, detachLease_get update.wellFormed hkey hdetached]
    rcases hlock : withActiveActorLock call files (writeLocked E call p' detached' wanted options.ttlMs) with
      ⟨files', outcome⟩
    rcases hkept with hsame | ⟨lease, hkept, hlease⟩
    · rcases withActiveActorLock_cases hlock with ⟨rfl, -⟩ | ⟨e, hop, -⟩ | ⟨result, hop, -⟩
      · exact .inl rfl
      · rw [hop] at hsame
        exact .inl hsame
      · rw [hop] at hsame
        exact .inl hsame
    · rw [Writes, hlease] at hwrites
      rcases withActiveActorLock_cases hlock with ⟨rfl, -⟩ | ⟨e, hop, -⟩ | ⟨result, hop, -⟩
      · exact .inl rfl
      · rw [hop] at hlease
        cases hlease
      · rw [hop] at hwrites
        exact .inr ⟨p', lease, hwrites.1, hkept, hwrites.2⟩

variable (E) in
/-- An update has returned this lease: it was shown the lease at the path, and this one takes its place. -/
structure Returned (call : StoreCall) (actor : ActiveActorKey)
    (decide : Option Json → Except Failure (ActiveLeaseDecision E)) (p : ActivePath) (files files' : ActiveFiles)
    (lease : Json) : Prop where
  read : readPath E call files p = .ok (committed E files p)
  own : (committed E files p).any (fun current => current.actor ≠ actor) = false
  updates : ∃ input, Updates E decide files p input lease
  after : files' = Function.update files p (some (leaseBytes lease))

/-- What an update returns is what was returned under the lock. -/
theorem update_result {call : StoreCall} {p : ActivePath} {actor : ActiveActorKey} (hnamed : actorPath E actor = .ok p)
    {decide : Option Json → Except Failure (ActiveLeaseDecision E)} {options : UpdateOptions} {files : ActiveFiles}
    {result : ActiveLeaseUpdateResult} (h : (update E call actor decide options files).2 = .ok result) :
    updateLocked E call p actor decide options files = ((update E call actor decide options files).1, .ok result) := by
  unfold update at h ⊢
  dsimp only at h ⊢
  split at h
  · cases h
  · next q hprepared =>
    have hq : q = p := by
      simp only [hnamed, Outcome.bind_ok, Outcome.pure_ok] at hprepared
      obtain ⟨q, hq, -, -, rfl⟩ := hprepared
      exact (Except.ok.inj hq).symm
    subst hq
    rcases hlock : withActiveActorLock call files (updateLocked E call q actor decide options) with ⟨files', outcome⟩
    rw [hlock] at h
    rcases withActiveActorLock_cases hlock with ⟨rfl, e, rfl⟩ | ⟨e, hop, rfl⟩ | ⟨found, hop, hout⟩
    · cases h
    · cases h
    · rw [hop]
      rcases hout with rfl | ⟨f, rfl⟩
      · cases h
        rfl
      · dsimp only at h ⊢
        split at h
        · next hobserved =>
          cases h
          rw [if_pos hobserved]
        · cases h

/-- **An update that returns a lease** has committed that lease. -/
theorem update_returned {call : StoreCall} {p : ActivePath} {actor : ActiveActorKey} (hnamed : actorPath E actor = .ok p)
    {decide : Option Json → Except Failure (ActiveLeaseDecision E)} {options : UpdateOptions} {files : ActiveFiles}
    {lease : Json} (h : (update E call actor decide options files).2 = .ok (.lease lease)) :
    Returned E call actor decide p files (update E call actor decide options files).1 lease := by
  have hresult := update_result hnamed h
  generalize (update E call actor decide options files).1 = after at hresult ⊢
  unfold updateLocked at hresult
  split at hresult
  · cases hresult
  · next current hread =>
    split at hresult
    · cases hresult
    · next hactor =>
      split at hresult
      · cases hresult
      · cases hresult
      · next input hdecision =>
        have hwrites := @updateWrite_writes E call files p actor current input options.ttlMs hread hnamed
        split at hresult
        · cases hresult
        · next files' new hwrite =>
          obtain ⟨hobject, hkept⟩ := updateWrite_kept (congrArg Prod.snd hwrite)
          rw [Writes, hwrite] at hwrites
          obtain ⟨rfl, -⟩ := readPath_ok hread
          split at hresult
          · cases hresult
          · cases hresult
            exact ⟨hread, by simpa using hactor, ⟨input, hwrites.1, hdecision, hobject, hkept⟩, hwrites.2⟩

/-- An update that was ignored has changed nothing, because that is what was decided. -/
theorem update_ignored {call : StoreCall} {p : ActivePath} {actor : ActiveActorKey} (hnamed : actorPath E actor = .ok p)
    {decide : Option Json → Except Failure (ActiveLeaseDecision E)} {options : UpdateOptions} {files : ActiveFiles}
    {reason : JsString} (h : (update E call actor decide options files).2 = .ok (.ignored reason)) :
    (update E call actor decide options files).1 = files ∧ decide (shownAt E files p) = .ok (.ignore reason) := by
  have hresult := update_result hnamed h
  generalize (update E call actor decide options files).1 = after at hresult ⊢
  unfold updateLocked at hresult
  split at hresult
  · cases hresult
  · next current hread =>
    obtain ⟨rfl, -⟩ := readPath_ok hread
    split at hresult
    · cases hresult
    · split at hresult
      · cases hresult
      · next hdecision =>
        cases hresult
        exact ⟨rfl, hdecision⟩
      · split at hresult
        · cases hresult
        · split at hresult
          · cases hresult
          · cases hresult

/-- An update that fails has changed nothing, if nothing runs after the commit and the release of the lock is observed. -/
theorem update_failed {call : StoreCall} {p : ActivePath} {actor : ActiveActorKey} (hnamed : actorPath E actor = .ok p)
    {decide : Option Json → Except Failure (ActiveLeaseDecision E)} {options : UpdateOptions} {files : ActiveFiles}
    {e : ActiveFailure} (hafter : options.afterCommit = none) (hobserved : options.onLockReleaseFailure = true)
    (h : (update E call actor decide options files).2 = .error e) : (update E call actor decide options files).1 = files := by
  have hlocked : ∀ e', (updateLocked E call p actor decide options files).2 = .error e' →
      (updateLocked E call p actor decide options files).1 = files := by
    intro e' h
    unfold updateLocked at h ⊢
    split
    · rfl
    · next current hread =>
      split
      · rfl
      · next hactor =>
        split
        · rfl
        · rfl
        · next input hdecision =>
          have hwrites := @updateWrite_writes E call files p actor current input options.ttlMs hread hnamed
          rcases hwrite : updateWrite E call p actor current input options.ttlMs files with ⟨files', e'' | lease⟩
          · rw [Writes, hwrite] at hwrites
            exact hwrites
          · simp only [hread, if_neg hactor, hdecision, hwrite, hafter] at h
            cases h
  unfold update at h ⊢
  dsimp only at h ⊢
  split
  · rfl
  · next q hprepared =>
    rw [hprepared] at h
    dsimp only at h
    have hq : q = p := by
      simp only [hnamed, Outcome.bind_ok, Outcome.pure_ok] at hprepared
      obtain ⟨q, hq, -, -, rfl⟩ := hprepared
      exact (Except.ok.inj hq).symm
    subst hq
    rcases hlock : withActiveActorLock call files (updateLocked E call q actor decide options) with ⟨files', outcome⟩
    rw [hlock] at h
    rcases withActiveActorLock_cases hlock with ⟨rfl, e', rfl⟩ | ⟨e', hop, rfl⟩ | ⟨found, hop, hout⟩
    · rfl
    · rw [hop] at hlocked
      exact hlocked e' rfl
    · rcases hout with rfl | ⟨f, rfl⟩
      · cases h
      · dsimp only at h
        rw [if_pos hobserved] at h
        cases h

end

end Barbaro.Active

namespace Barbaro.Hooks

open Active Codex TurnFence

section
variable {E : Host}

/-! ## What the lease says of its turn -/

/-- A lease, as the record of its actor. -/
def leasePhase (lease : Json) : Phase JsString :=
  if isIdle lease then .closed (textAt? "turn_id" lease) else .live (textAt? "turn_id" lease)

def phaseOf : Option Json → Phase JsString
  | none => .absent
  | some lease => leasePhase lease

variable (E) in
/-- The record of an actor. -/
def phaseAt (files : ActiveFiles) (p : ActivePath) : Phase JsString := phaseOf ((committed E files p).map (·.json))

theorem phaseOf_turn (previous : Option Json) : (phaseOf previous).turn = previous.bind (textAt? "turn_id") := by
  cases previous with
  | none => rfl
  | some lease =>
    rw [phaseOf, leasePhase]
    split
    · rfl
    · rfl

theorem turnIdsDiffer_iff {current event : Option JsString} : turnIdsDiffer current event = true ↔ Differ current event := by
  unfold turnIdsDiffer Differ
  cases current with
  | none => simp
  | some s => cases event with
    | none => simp
    | some t => simp

theorem lookup_optionalField (key k : String) (value : Option Json) :
    Json.lookup (js k) (optionalField key value) = if key = k then value else none := by
  cases value with
  | none => simp [optionalField, Json.lookup]
  | some v => simp [optionalField, Json.lookup, js_inj]

/-- The members of a lease of the actor. -/
structure LeaseOf (a : CodexIdentity) (state : String) (intent extensions : Option Json) (lease : Json) : Prop where
  state : lease.get (js "state") = some (.str (js state))
  turn : textAt? "turn_id" lease = a.turnId
  intent : lease.get (js "intent") = intent
  extensions : lease.get (js "extensions") = extensions

theorem textAt?_of_get {key : String} {lease : Json} {text : Option JsString} (h : lease.get (js key) = text.map .str) :
    textAt? key lease = text := by
  unfold textAt?
  rw [h]
  cases text with
  | none => rfl
  | some s => rfl

theorem LeaseOf.kept {a : CodexIdentity} {state : String} {intent extensions : Option Json} {input lease : Json}
    (h : LeaseOf a state intent extensions input)
    (hkept : ∀ key, key ∉ generatedFields → lease.get (js key) = input.get (js key)) :
    LeaseOf a state intent extensions lease := by
  refine ⟨?_, ?_, ?_, ?_⟩
  · rw [hkept "state" (by decide), h.state]
  · rw [textAt?, hkept "turn_id" (by decide)]
    exact h.turn
  · rw [hkept "intent" (by decide), h.intent]
  · rw [hkept "extensions" (by decide), h.extensions]

theorem LeaseOf.phase {a : CodexIdentity} {state : String} {intent extensions : Option Json} {lease : Json}
    (h : LeaseOf a state intent extensions lease) :
    leasePhase lease = if state = "idle" then .closed a.turnId else .live a.turnId := by
  rw [leasePhase, isIdle, h.state, h.turn, equalsText]
  by_cases hidle : state = "idle"
  · subst hidle
    rw [if_pos rfl, if_pos (by simp)]
  · rw [if_neg hidle, if_neg (by simpa [js_inj] using hidle)]

theorem codexLease_of {a : CodexIdentity} {state : String} {intent extensions currentAction : Option Json}
    (h : isObject (some (codexLease E a state intent extensions currentAction).json) = true) :
    LeaseOf a state intent extensions (codexLease E a state intent extensions currentAction).json := by
  unfold codexLease at h ⊢
  rw [ofJson_json h]
  unfold CodexIdentity.fields
  refine ⟨?_, textAt?_of_get ?_, ?_, ?_⟩
  all_goals simp [Json.get, lookup_append, lookup_optionalField, Json.lookup, js_inj]

theorem lease_of {a : CodexIdentity} {state : String} {previous : Option Json} {currentAction : Json}
    {claims : List ActiveWriteClaim} {unknownWriteScope : Bool} :
    LeaseOf a state (sameTurnUpdate a "intent" previous) (sameTurnUpdate a "extensions" previous)
      (a.lease state previous currentAction claims unknownWriteScope) := by
  unfold CodexIdentity.lease CodexIdentity.fields CodexIdentity.ofTurn sameTurnUpdate
  refine ⟨?_, textAt?_of_get ?_, ?_, ?_⟩
  all_goals simp [Json.get, lookup_append, lookup_optionalField, Json.lookup, js_inj]

theorem codexIdle_of (a : CodexIdentity) : LeaseOf a "idle" none none (codexIdle E a).json := by
  unfold codexIdle idleLeaseUpdate idleLeaseJson
  refine ⟨?_, textAt?_of_get ?_, ?_, ?_⟩
  all_goals simp [Json.get, lookup_append, lookup_optionalField, Json.lookup, js_inj]

/-! ## The ledger -/

/-- The actor an event is of: the main agent of a session or one of its children. -/
structure CodexActor where
  nativeSessionId : JsString
  agentId : JsString
  deriving DecidableEq, Repr

variable (E) in
def CodexActor.key (x : CodexActor) : ActiveActorKey :=
  ⟨js "codex", createSessionId E.toHasher (js "codex") x.nativeSessionId, x.agentId⟩

/-- The main agent of its session. -/
def CodexActor.root (x : CodexActor) : CodexActor := { x with agentId := js "main" }

variable (E) in
/-- The actor's name for a turn of the trace. -/
def CodexActor.turn (x : CodexActor) (nativeTurnId : JsString) : JsString :=
  createTurnId E.toHasher (js "codex") x.nativeSessionId x.agentId nativeTurnId

variable (E) in
/-- The trace has started the turn last. -/
def CodexActor.Last (x : CodexActor) (trace : Bytes) (t : JsString) : Prop :=
  (startedTurns E trace).getLast?.map (x.turn E) = some t

variable (E) in
/-- The event is of the actor. -/
structure EventOf (x : CodexActor) (h : CodexHookInput) (a : CodexIdentity) : Prop where
  session : h.nativeSessionId = x.nativeSessionId
  agent : h.agentId = x.agentId
  identity : ∃ workstreamId, a = codexIdentity E h workstreamId

/-- The paths of the event lead to the trace, as it is. -/
def ReadsTrace (c : CodexHookCall E) (h : CodexHookInput) (trace : Bytes) : Prop :=
  ∀ path, h.tracePath = some path ∨ h.agentTracePath = some path →
    (c.traces path).chunks.flatten = trace ∧ (c.traces path).WithinEnd { pinEnd := true }

variable (E) in
/-- The root of the actor is visibly live. -/
def RootLive (x : CodexActor) (files : ActiveFiles) : Prop :=
  ∃ call lease, readActive E call (x.root.key E) files = .ok (some lease)

variable {x : CodexActor} {c : CodexHookCall E} {h : CodexHookInput} {a : CodexIdentity} {trace : Bytes}
  {files : ActiveFiles}

theorem EventOf.agentId (hof : EventOf E x h a) : a.agentId = h.agentId := by
  obtain ⟨workstreamId, rfl⟩ := hof.identity
  rfl

theorem EventOf.key (hof : EventOf E x h a) : a.key = x.key E := by
  obtain ⟨workstreamId, rfl⟩ := hof.identity
  simp only [CodexIdentity.key, codexIdentity, CodexActor.key, hof.session, hof.agent]

theorem EventOf.turnId (hof : EventOf E x h a) : a.turnId = h.nativeTurnId.map (x.turn E) := by
  obtain ⟨workstreamId, rfl⟩ := hof.identity
  simp only [codexIdentity, hof.session, hof.agent]
  rfl

/-- **A turn that takes over** is the one that the trace has started last. -/
theorem attest_last {tracePath : Option JsString} {stale : JsString} (hof : EventOf E x h a)
    (hreads : ReadsTrace c h trace) (hpath : tracePath = h.tracePath ∨ tracePath = h.agentTracePath)
    (hok : attestCodexTurnRollover E c h tracePath stale = .ok none) : ∃ t, a.turnId = some t ∧ x.Last E trace t := by
  unfold attestCodexTurnRollover at hok
  split at hok
  · next native path hnative =>
    simp only [Outcome.bind_ok] at hok
    obtain ⟨attestation, hattestation, -, -, hok⟩ := hok
    split_ifs at hok with hthread hwhole hlast
    · cases hok
    · obtain ⟨hbytes, hend⟩ := hreads path (hpath.imp Eq.symm Eq.symm)
      have hread : readCodexTurnAttestation E (c.traces path) = .ok attestation := by
        unfold readTrace at hattestation
        cases hresult : readCodexTurnAttestation E (c.traces path) with
        | error f =>
          rw [hresult] at hattestation
          cases hattestation
        | ok found =>
          rw [hresult] at hattestation
          exact hattestation
      have hlatest := (readCodexTurnAttestation_attests hend hread).latest
      rw [hbytes, hlast] at hlatest
      refine ⟨x.turn E native, by rw [hof.turnId, hnative, Option.map_some], ?_⟩
      rw [CodexActor.Last, ← hlatest, Option.map_some]
    · cases hok
  · cases hok

/-! ## Decisions -/

theorem staleTurnDecision_none {previous : Option Json} {t : Option JsString} (hok : staleTurnDecision previous t = none) :
    ¬ Differ (phaseOf previous).turn t := by
  unfold staleTurnDecision at hok
  split at hok
  · cases hok
  · next hsame =>
    rw [phaseOf_turn]
    exact fun hdiffer => hsame (turnIdsDiffer_iff.2 hdiffer)

theorem staleTurnDecision_some {previous : Option Json} {t : Option JsString} {stale : JsString}
    (hok : staleTurnDecision previous t = some stale) : Differ (phaseOf previous).turn t := by
  unfold staleTurnDecision at hok
  split at hok
  · next hdiffer =>
    rw [phaseOf_turn]
    exact turnIdsDiffer_iff.1 hdiffer
  · cases hok

theorem staleFirstSeen_none {previous : Option Json} (hof : EventOf E x h a)
    (hok : staleFirstSeenChildIgnore E c a files previous = .ok none) :
    a.agentId = js "main" ∨ previous.isSome = true ∨ RootLive E x files := by
  have hroot : (⟨js "codex", a.sessionId, js "main"⟩ : ActiveActorKey) = x.root.key E := by
    have hkey := congrArg ActiveActorKey.sessionId hof.key
    rw [show a.sessionId = _ from hkey]
    rfl
  unfold staleFirstSeenChildIgnore at hok
  rw [hroot] at hok
  split_ifs at hok with hseen
  · exact hseen.imp id .inl
  · refine .inr (.inr ?_)
    split at hok
    · cases hok
    · next root hroot =>
      cases root with
      | none => cases hok
      | some lease => exact ⟨_, lease, hroot⟩

/-- **A tool event that is not too late** is a step of the fence. -/
theorem staleTool_fenced {previous : Option Json} (hof : EventOf E x h a) (hreads : ReadsTrace c h trace)
    (hok : staleToolTurnDecision E c h a files previous = .ok none) :
    Step (a.agentId = js "main") (x.Last E trace) (RootLive E x files) (phaseOf previous) (.work a.turnId)
      (.live a.turnId) := by
  simp only [staleToolTurnDecision, Outcome.bind_ok] at hok
  obtain ⟨unseen, hunseen, hok⟩ := hok
  cases unseen with
  | some reason => cases hok
  | none =>
    have hseen := staleFirstSeen_none hof hunseen
    have hagent := hof.agentId
    cases previous with
    | none => exact .firstWork (hseen.imp id (·.resolve_left (by simp)))
    | some lease =>
      dsimp only at hok
      by_cases hmain : h.agentId = js "main"
      · rw [if_neg (not_not_intro hmain)] at hok
        cases hidle : isIdle lease with
        | false =>
          rw [if_pos (by simp [hidle])] at hok
          have hdiffer := staleTurnDecision_none (Except.ok.inj hok)
          rw [phaseOf, leasePhase, hidle] at hdiffer ⊢
          exact .work hdiffer
        | true =>
          rw [if_neg (by simp [hidle])] at hok
          split at hok
          · cases hok
          · next hturn =>
            rw [not_or] at hturn
            obtain ⟨t, ht, hlast⟩ := attest_last hof hreads (.inl rfl) hok
            rw [phaseOf, leasePhase, hidle, ht]
            rw [ht] at hturn
            exact .reopen hturn.2 (.inl (hagent.trans hmain)) hlast
      · rw [if_pos hmain] at hok
        have hchild : ¬ a.agentId = js "main" := fun heq => hmain (hagent.symm.trans heq)
        cases hstale : staleTurnDecision (some lease) a.turnId with
        | none =>
          rw [hstale] at hok
          dsimp only at hok
          have hdiffer := staleTurnDecision_none hstale
          cases hidle : isIdle lease with
          | true =>
            rw [if_pos (by simp [hidle])] at hok
            cases hok
          | false =>
            rw [phaseOf, leasePhase, hidle] at hdiffer ⊢
            exact .work hdiffer
        | some stale =>
          rw [hstale] at hok
          obtain ⟨t, ht, hlast⟩ := attest_last hof hreads (.inl rfl) hok
          have hdiffer := staleTurnDecision_some hstale
          rw [ht] at hdiffer ⊢
          obtain ⟨s, u, hs, hu, hne⟩ := hdiffer
          cases hidle : isIdle lease with
          | true =>
            rw [phaseOf, leasePhase, hidle] at hs ⊢
            have hs : textAt? "turn_id" lease = some s := hs
            refine .reopen ?_ (.inr (by simp [hs])) hlast
            rw [hs, hu]
            exact fun heq => hne (Option.some.inj heq)
          | false =>
            rw [phaseOf, leasePhase, hidle]
            exact .rollover hchild hlast

theorem staleMain_fenced {previous : Option Json} (hof : EventOf E x h a) (hreads : ReadsTrace c h trace)
    (hok : staleMainTurnDecision E c h a previous = .ok none) :
    Step (a.agentId = js "main") (x.Last E trace) (RootLive E x files) (phaseOf previous) (.stop a.turnId)
      (.closed a.turnId) := by
  unfold staleMainTurnDecision at hok
  split at hok
  · next hstale => exact .stop (staleTurnDecision_none hstale)
  · next stale hstale =>
    split at hok
    · cases hok
    · next hidle =>
      obtain ⟨t, ht, hlast⟩ := attest_last hof hreads (.inl rfl) hok
      cases previous with
      | none => simp at hidle
      | some lease =>
        rw [phaseOf, leasePhase, if_pos (by simpa using hidle), ht]
        exact .stopLast hlast

theorem staleStop_fenced {previous : Option Json} (hof : EventOf E x h a) (hreads : ReadsTrace c h trace)
    (hok : staleSubagentStop E c h a previous = .ok none) :
    Step (a.agentId = js "main") (x.Last E trace) (RootLive E x files) (phaseOf previous) (.finish a.turnId)
      (.closed a.turnId) := by
  unfold staleSubagentStop at hok
  split at hok
  · next hstale => exact .finish (staleTurnDecision_none hstale)
  · next stale hstale =>
    obtain ⟨t, ht, hlast⟩ := attest_last hof hreads (.inr rfl) hok
    rw [ht]
    exact .finishLast hlast

theorem isPristine_live {lease : Json} (h : isPristine lease = true) : isIdle lease = false := by
  simp only [isPristine, Bool.and_eq_true] at h
  have hstate := h.1.1.1.1.1
  unfold equalsText at hstate
  split at hstate
  · next state hget =>
    rw [isIdle, hget, equalsText]
    rw [beq_iff_eq] at hstate
    subst hstate
    decide
  · cases hstate

theorem stalePrompt_fenced {previous : Option Json} (hof : EventOf E x h a)
    (hok : staleUserPromptIgnore E c a files previous = .ok none) :
    Step (a.agentId = js "main") (x.Last E trace) (RootLive E x files) (phaseOf previous) (.prompt a.turnId)
      (.live a.turnId) := by
  unfold staleUserPromptIgnore at hok
  split at hok
  · next hmain => exact .prompt hmain
  · next hchild =>
    split at hok
    · cases hok
    · next hstale =>
      split at hok
      · exact .firstPrompt (((staleFirstSeen_none hof hok).resolve_left hchild).resolve_left (by simp))
      · next lease =>
        split at hok
        · next hpristine =>
          have hdiffer := staleTurnDecision_none hstale
          rw [phaseOf, leasePhase, isPristine_live hpristine] at hdiffer ⊢
          exact .ownPrompt hdiffer
        · cases hok

theorem staleStart_fenced {previous : Option Json} (hof : EventOf E x h a)
    (hok : staleSubagentStartIgnore E c a files previous = .ok none) :
    Step (a.agentId = js "main") (x.Last E trace) (RootLive E x files) (phaseOf previous) (.start a.turnId)
      (.live a.turnId) := by
  unfold staleSubagentStartIgnore at hok
  split at hok
  · cases hok
  · split at hok
    · cases hok
    · next hnone =>
      cases previous with
      | some lease => simp at hnone
      | none => exact .start ((staleFirstSeen_none hof hok).imp id (·.resolve_left (by simp)))

/-! ## What an event asks for -/

/-- The act that an event tells. -/
def toldAct (event : JsString) (turn : Option JsString) : Act JsString :=
  if isEvent ["SessionStart", "SessionEnd"] event then .session turn
  else if event = js "SubagentStart" then .start turn
  else if event = js "SubagentStop" then .finish turn
  else if event = js "UserPromptSubmit" then .prompt turn
  else if event = js "Stop" then .stop turn
  else .work turn

/-- What an event makes of the lease it was shown: the act it tells, and the state, the intent and the
extensions of the lease that takes its place. -/
inductive Asks (c : CodexHookCall E) (h : CodexHookInput) (a : CodexIdentity) (input : Json) (files : ActiveFiles)
    (previous : Option Json) : Act JsString → String → Option Json → Option Json → Prop
  | session : Asks c h a input files previous (.session a.turnId) "idle" none none
  | start (hok : staleSubagentStartIgnore E c a files previous = .ok none) :
      Asks c h a input files previous (.start a.turnId) "working" none none
  | finish (hok : staleSubagentStop E c h a previous = .ok none) :
      Asks c h a input files previous (.finish a.turnId) "idle" none none
  | prompt (hevent : h.event = js "UserPromptSubmit") (hok : staleUserPromptIgnore E c a files previous = .ok none) :
      Asks c h a input files previous (.prompt a.turnId) "working"
        (some (boundedContent ((stringValue (input.get (js "prompt"))).getD []) activeIntentBytes)) none
  | tool {state : String} (hstate : state ≠ "idle") (hok : staleToolTurnDecision E c h a files previous = .ok none) :
      Asks c h a input files previous (.work a.turnId) state (sameTurnUpdate a "intent" previous)
        (sameTurnUpdate a "extensions" previous)
  | compact (hevent : isEvent ["PreCompact", "PostCompact"] h.event = true)
      (hok : staleToolTurnDecision E c h a files previous = .ok none) :
      Asks c h a input files previous (.work a.turnId) "working" (intentOf previous) (sameTurnUpdate a "extensions" previous)
  | stop (hok : staleMainTurnDecision E c h a previous = .ok none) :
      Asks c h a input files previous (.stop a.turnId) "idle" none none

/-- **What an event asks for** is a step of the fence. -/
theorem Asks.fenced {input : Json} {previous : Option Json} {act : Act JsString} {state : String}
    {intent extensions : Option Json} (hasks : Asks c h a input files previous act state intent extensions)
    (hof : EventOf E x h a) (hreads : ReadsTrace c h trace) :
    Step (a.agentId = js "main") (x.Last E trace) (RootLive E x files) (phaseOf previous) act
      (if state = "idle" then .closed a.turnId else .live a.turnId) := by
  cases hasks with
  | session => exact .session
  | start hok => exact staleStart_fenced hof hok
  | finish hok => exact staleStop_fenced hof hreads hok
  | prompt hevent hok => exact stalePrompt_fenced hof hok
  | tool hstate hok =>
    rw [if_neg hstate]
    exact staleTool_fenced hof hreads hok
  | compact hevent hok => exact staleTool_fenced hof hreads hok
  | stop hok => exact staleMain_fenced hof hreads hok

variable (E) in
/-- A lease with these members takes the place of the one at the path. -/
structure Replaces (a : CodexIdentity) (p : ActivePath) (files files' : ActiveFiles) (state : String)
    (intent extensions : Option Json) (lease : Json) : Prop where
  commits : Commits E files p lease
  members : LeaseOf a state intent extensions lease
  after : files' = Function.update files p (some (leaseBytes lease))

/-- An event changes nothing, or its lease takes the place of the one it was shown. -/
def Asked (c : CodexHookCall E) (h : CodexHookInput) (a : CodexIdentity) (input : Json) (p : ActivePath)
    (files files' : ActiveFiles) : Prop :=
  files' = files ∨ ∃ state intent extensions lease,
    Asks c h a input files (shownAt E files p) (toldAct h.event a.turnId) state intent extensions ∧
      Replaces E a p files files' state intent extensions lease

variable {p : ActivePath} {input : Json}

/-- An update that decides as the event asks. -/
theorem update_asked {decide : Option Json → Except Failure (ActiveLeaseDecision E)} {options : UpdateOptions}
    (hnamed : actorPath E a.key = .ok p)
    (hdecide : ∀ written, decide (shownAt E files p) = .ok (.write written) → isObject (some written.json) = true →
      ∃ state intent extensions,
        Asks c h a input files (shownAt E files p) (toldAct h.event a.turnId) state intent extensions ∧
          LeaseOf a state intent extensions written.json) :
    Asked c h a input p files (update E c.store a.key decide options files).1 := by
  rcases update_cases hnamed decide options files with ⟨hsame, -⟩ | ⟨written, lease, hupdates, hafter⟩
  · exact .inl hsame
  · obtain ⟨state, intent, extensions, hasks, hmembers⟩ := hdecide written hupdates.decided hupdates.object
    exact .inr ⟨state, intent, extensions, lease, hasks, hupdates.commits, hmembers.kept hupdates.kept, hafter⟩

theorem unlessStale_write {stale : StaleTurn} {write : Option Json → JsonInput E} {previous : Option Json}
    {written : JsonInput E} (hok : unlessStale E stale write previous = .ok (.write written)) :
    stale previous = .ok none ∧ written = write previous := by
  simp only [unlessStale, Outcome.bind_ok] at hok
  obtain ⟨reason, hreason, hok⟩ := hok
  cases reason with
  | some reason => cases hok
  | none =>
    cases hok
    exact ⟨hreason, rfl⟩

theorem settle_asked {stale : StaleTurn} {write : Option Json → JsonInput E} (hnamed : actorPath E a.key = .ok p)
    (hasks : stale (shownAt E files p) = .ok none → isObject (some (write (shownAt E files p)).json) = true →
      ∃ state intent extensions,
        Asks c h a input files (shownAt E files p) (toldAct h.event a.turnId) state intent extensions ∧
          LeaseOf a state intent extensions (write (shownAt E files p)).json) :
    Asked c h a input p files (settle E c a stale write files).1 := by
  refine update_asked hnamed fun written hdecided hobject => ?_
  obtain ⟨hstale, rfl⟩ := unlessStale_write hdecided
  exact hasks hstale hobject

theorem codexPreTool_asked {activity : ToolActivity} {options : UpdateOptions} (hnamed : actorPath E a.key = .ok p)
    (hact : toldAct h.event a.turnId = .work a.turnId) : Asked c h a input p files
      (update E c.store a.key (codexPreTool E a activity (staleToolTurnDecision E c h a files)) options files).1 := by
  refine update_asked hnamed fun written hdecided hobject => ?_
  simp only [codexPreTool, Outcome.bind_ok] at hdecided
  obtain ⟨reason, hreason, hdecided⟩ := hdecided
  cases reason with
  | some reason => cases hdecided
  | none =>
    cases hdecided
    rw [ofJson_json hobject, hact]
    refine ⟨_, _, _, .tool ?_ hreason, lease_of⟩
    split
    · decide
    · decide

theorem codexPermission_asked {activity : ToolActivity} {options : UpdateOptions} (hnamed : actorPath E a.key = .ok p)
    (hact : toldAct h.event a.turnId = .work a.turnId) : Asked c h a input p files
      (update E c.store a.key (codexPermission E a activity (staleToolTurnDecision E c h a files)) options files).1 := by
  refine update_asked hnamed fun written hdecided hobject => ?_
  simp only [codexPermission, Outcome.bind_ok] at hdecided
  obtain ⟨reason, hreason, hdecided⟩ := hdecided
  rw [hact]
  cases reason with
  | some reason => cases hdecided
  | none =>
    dsimp only at hdecided
    split at hdecided
    · cases hdecided
      rw [ofJson_json hobject]
      exact ⟨_, _, _, .tool (by decide) hreason, lease_of⟩
    · cases hdecided
      rw [ofJson_json hobject]
      exact ⟨_, _, _, .tool (by decide) hreason, lease_of⟩

/-- The actor of a tombstone is the one it was made for. -/
theorem codexIdle_actor (a : CodexIdentity) : actorFromLease (codexIdle E a).json = a.key := by
  unfold codexIdle idleLeaseUpdate idleLeaseJson actorFromLease textAt
  simp [Json.get, Json.lookup, js_inj, CodexIdentity.key]

theorem codexWriteIdle_asked (hnamed : actorPath E a.key = .ok p)
    (hact : toldAct h.event a.turnId = .session a.turnId) : Asked c h a input p files (codexWriteIdle E c h a files).1 := by
  have hcases := @write_cases E c.store (codexIdle E a) {} files
  rcases hcases with hsame | ⟨q, lease, hcommits, hkept, hafter⟩
  · exact .inl hsame
  · have hactor : actorFromLease lease = a.key := by
      rw [← codexIdle_actor (E := E) a, actorFromLease, actorFromLease, textAt, textAt, textAt, textAt, textAt, textAt,
        hkept "provider" (by decide), hkept "session_id" (by decide), hkept "agent_id" (by decide)]
    have hp := hcommits.named
    rw [hactor, hnamed] at hp
    cases hp
    exact .inr ⟨_, _, _, lease, hact ▸ .session, hcommits, (codexIdle_of a).kept hkept, hafter⟩

/-- **An event that is no Stop** does what it asks for. -/
theorem dispatch_asked (hnamed : actorPath E a.key = .ok p) (hstop : h.event ≠ js "Stop") (message : Option JsString) :
    Asked c h a input p files (dispatch E c h a input message files).1 := by
  have hwork : ∀ name : String, h.event = js name → toldAct (js name) a.turnId = .work a.turnId →
      toldAct h.event a.turnId = .work a.turnId := fun name hname htold => by rw [hname, htold]
  unfold dispatch
  dsimp only
  split_ifs with hsession hstart hfinish hprompt hpre hpermission hpost hcompact hcompacted
  · exact codexWriteIdle_asked hnamed (by rw [toldAct, if_pos hsession])
  · have hact : toldAct h.event a.turnId = .start a.turnId := by rw [toldAct, if_neg hsession, if_pos hstart]
    exact settle_asked hnamed fun hok hobject => ⟨_, _, _, hact ▸ .start hok, codexLease_of hobject⟩
  · have hact : toldAct h.event a.turnId = .finish a.turnId := by
      rw [toldAct, if_neg hsession, if_neg hstart, if_pos hfinish]
    exact settle_asked hnamed fun hok _ => ⟨_, _, _, hact ▸ .finish hok, codexIdle_of a⟩
  · have hact : toldAct h.event a.turnId = .prompt a.turnId := by
      rw [toldAct, if_neg hsession, if_neg hstart, if_neg hfinish, if_pos hprompt]
    exact settle_asked hnamed fun hok hobject => ⟨_, _, _, hact ▸ .prompt hprompt hok, codexLease_of hobject⟩
  · exact codexPreTool_asked hnamed (hwork _ hpre rfl)
  · exact codexPermission_asked hnamed (hwork _ hpermission rfl)
  · exact settle_asked hnamed fun hok hobject =>
      ⟨_, _, _, hwork _ hpost rfl ▸ .tool (by decide) hok, codexLease_of hobject⟩
  · refine settle_asked hnamed fun hok hobject =>
      ⟨_, _, _, hwork _ hcompact rfl ▸ .compact ?_ hok, codexLease_of hobject⟩
    rw [hcompact]
    decide
  · refine settle_asked hnamed fun hok hobject =>
      ⟨_, _, _, hwork _ hcompacted rfl ▸ .compact ?_ hok, codexLease_of hobject⟩
    rw [hcompacted]
    decide
  · exact .inl rfl

/-- **The first change of a Stop** does what it asks for. -/
theorem beginStop_asked (hnamed : actorPath E a.key = .ok p) (hstop : h.event = js "Stop") :
    Asked c h a input p files (beginStop E c h a input files).1 := by
  have hact : toldAct h.event a.turnId = .stop a.turnId := by
    rw [hstop]
    rfl
  exact settle_asked hnamed fun hok _ => ⟨_, _, _, hact ▸ .stop hok, codexIdle_of a⟩

end

end Barbaro.Hooks
