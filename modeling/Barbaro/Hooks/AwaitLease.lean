import Barbaro.Core.FirstCommand
import Barbaro.Hooks.InFlight
import Barbaro.Reader.Dependency

/-!
# The lease of a wait

A hook that sees a wait begin commits a waiting lease, which lives a little longer than the wait.
The lease keeps a bounded excerpt of the command, and the reader classifies that again.

* `shellActivity`: what Codex makes of a shell command.
* `update_lease`: the lease an update commits, with its times.
* `WaitCommitted`: the ways in which a hook commits a wait.
* `await_lease_seen`: the reader sees the wait, if its first command fits the excerpt.
* `await_lease_cut`: otherwise it may not.
-/

namespace Barbaro.Active

section
variable {E : Host}

/-! ## What an update commits -/

/-- The times of a lease. -/
theorem nextLease_times {call : StoreCall} {current : Option (ActiveLeaseV1 E)} {detached lease : Json} {ttlMs : ℤ}
    (h : nextLease E call current detached ttlMs = .ok lease) : validateActiveLease E lease = [] ∧
      ∃ now expires, call.now = some now ∧ E.isoString (now + ttlMs) = some expires ∧
        lease.get (js "expires_at") = some (.str expires) := by
  simp only [nextLease, Outcome.guard_ok] at h
  obtain ⟨-, h⟩ := h
  rcases hnow : call.now with _ | now
  · rw [hnow] at h
    cases h
  · rw [hnow] at h
    simp only [Outcome.bind_ok, Outcome.pure_ok, checkLease, Outcome.guard_else] at h
    obtain ⟨updated, -, expires, hexpires, -, ⟨hvalid, -⟩, rfl⟩ := h
    refine ⟨hvalid, now, expires, rfl, ?_, ?_⟩
    · unfold toISOString at hexpires
      cases hiso : E.isoString (now + ttlMs) with
      | none =>
        rw [hiso] at hexpires
        cases hexpires
      | some s =>
        rw [hiso] at hexpires
        rw [Except.ok.inj hexpires]
    · simp [withFields, Json.get, Json.lookup_setField]

/-- A lease that an update has committed. -/
structure CommittedLease (decide : Option Json → Except Failure (ActiveLeaseDecision E)) (call : StoreCall) (ttlMs : ℤ)
    (current : Option (ActiveLeaseV1 E)) (input : JsonInput E) (lease : Json) : Prop where
  decided : decide (current.map (fun lease => cloneLease E lease.json)) = .ok (.write input)
  object : isObject (some input.json) = true
  kept : ∀ key, key ∉ generatedFields → lease.get (js key) = input.json.get (js key)
  valid : validateActiveLease E lease = []
  times : ∃ now expires, call.now = some now ∧ E.isoString (now + ttlMs) = some expires ∧
    lease.get (js "expires_at") = some (.str expires)

/-- **The lease that an update returns** is the one it has decided on, with its times. -/
theorem update_lease {call : StoreCall} {actor : ActiveActorKey}
    {decide : Option Json → Except Failure (ActiveLeaseDecision E)} {options : UpdateOptions} {files : ActiveFiles}
    {lease : Json} (h : (update E call actor decide options files).2 = .ok (.lease lease)) :
    ∃ p input, actorPath E actor = .ok p ∧
      CommittedLease decide call options.ttlMs (committed E files p) input lease := by
  have hlocked : ∀ p, (updateLocked E call p actor decide options files).2 = .ok (.lease lease) →
      ∃ input, CommittedLease decide call options.ttlMs (committed E files p) input lease := by
    intro p h
    unfold updateLocked at h
    split at h
    · cases h
    · next current hread =>
      obtain ⟨rfl, -⟩ := readPath_ok hread
      split at h
      · cases h
      · split at h
        · cases h
        · cases h
        · next input hdecision =>
          split at h
          · cases h
          · next files' new hwrite =>
            have hnew := congrArg Prod.snd hwrite
            obtain ⟨detached, -, -, hnext⟩ := updateWrite_ok hnew
            obtain ⟨hobject, hkept⟩ := updateWrite_kept hnew
            obtain ⟨hvalid, htimes⟩ := nextLease_times hnext
            split at h
            · cases h
            · cases h
              exact ⟨input, hdecision, hobject, hkept, hvalid, htimes⟩
  unfold update at h
  dsimp only at h
  split at h
  · cases h
  · next p hprepared =>
    simp only [Outcome.bind_ok, Outcome.pure_ok] at hprepared
    obtain ⟨q, hq, -, -, rfl⟩ := hprepared
    obtain ⟨input, hinput⟩ : ∃ input, CommittedLease decide call options.ttlMs (committed E files q) input lease := by
      refine hlocked q ?_
      rcases hlock : withActiveActorLock call files (updateLocked E call q actor decide options) with
        ⟨files', outcome⟩
      rw [hlock] at h
      rcases withActiveActorLock_cases hlock with ⟨rfl, e, rfl⟩ | ⟨e, hop, rfl⟩ | ⟨result, hop, hout⟩
      · cases h
      · cases h
      · rw [hop]
        rcases hout with rfl | ⟨f, rfl⟩
        · exact h
        · dsimp only at h ⊢
          split at h
          · exact h
          · cases h
    exact ⟨q, input, hq, hinput⟩

/-- The action of a lease that was validated. -/
theorem action_valid {lease action : Json} (hvalid : validateActiveLease E lease = [])
    (haction : lease.get (js "current_action") = some action) {startedAt : JsString}
    (hstarted : action.get (js "started_at") = some (.str startedAt)) :
    ∃ path, (timestampMillis (some (.str startedAt)) path E).1 = [] := by
  have hcurrent : validateCurrentAction E (some action) (leasePath "current_action") = [] := by
    unfold validateActiveLease validateObject at hvalid
    split at hvalid
    · simp only [List.append_eq_nil_iff] at hvalid
      rw [haction] at hvalid
      have hoptional : validateOptional (some action) (leasePath "current_action") (validateCurrentAction E) = [] := by
        tauto
      exact hoptional
    · cases hvalid
  unfold validateCurrentAction validateObject at hcurrent
  split at hcurrent
  · next fs hfs =>
    cases hfs
    simp only [List.append_eq_nil_iff] at hcurrent
    have hlast := hcurrent.2
    rw [hstarted] at hlast
    exact ⟨_, hlast⟩
  · cases hcurrent

end

end Barbaro.Active

namespace Barbaro.Hooks

open Active Reader

/-! ## Shell commands in Codex -/

/-- `boundedContent` of a text. -/
def boundedContent (text : JsString) (maxBytes : ℕ) : Json :=
  let cut := decide (maxBytes < byteLength text)
  .obj [
    (js "text", .str (if cut then truncateUtf8 text maxBytes else text)),
    (js "fidelity", .str (if cut then js "excerpt" else js "verbatim")), (js "truncated", .bool cut),
    (js "original_utf8_bytes", natJson (byteLength text)), (js "redactions", .arr [])]

structure ToolActivity where
  currentAction : Json
  claims : List ActiveWriteClaim
  unknownWriteScope : Bool
  awaitCommand : Option AwaitCommandClassification

/-- The part of `classifyToolActivity` for `Bash` and `exec`. -/
def shellActivity (E : Host) (toolName : JsString) (toolInput : Json) (startedAt : JsString) : ToolActivity :=
  let command := stringValue (toolInput.get (js "command"))
  let awaitCommand := command.bind (classifyAwaitCommand E)
  { currentAction := .obj ([(js "kind", .str (js "command")), (js "tool_name", .str toolName)] ++
      optionalField "command" (command.map (boundedContent · activeIntentBytes)) ++
      [(js "started_at", .str startedAt)])
    claims := []
    unknownWriteScope := awaitCommand.isNone && !command.any isDigestExcludedBarbaroCommand
    awaitCommand }

/-- `leaseIdentity` -/
structure CodexIdentity where
  leaseId : JsString
  sessionId : JsString
  agentId : JsString
  workstreamId : Option JsString
  turnId : Option JsString

def CodexIdentity.key (a : CodexIdentity) : ActiveActorKey := ⟨js "codex", a.sessionId, a.agentId⟩

def CodexIdentity.fields (a : CodexIdentity) : List (JsString × Json) :=
  [(js "lease_id", .str a.leaseId), (js "provider", .str (js "codex")), (js "session_id", .str a.sessionId),
    (js "agent_id", .str a.agentId)] ++ optionalField "workstream_id" (a.workstreamId.map .str) ++
    optionalField "turn_id" (a.turnId.map .str)

/-- The stored lease is of the turn of the event. -/
def CodexIdentity.sameTurn (a : CodexIdentity) (previous : Option Json) : Bool :=
  a.turnId.isSome && previous.bind (textAt? "turn_id") == a.turnId

/-- A member that is kept within a turn. -/
def CodexIdentity.ofTurn (a : CodexIdentity) (key : String) (previous : Option Json) : List (JsString × Json) :=
  optionalField key (if a.sameTurn previous then previous.bind (Json.get (js key)) else none)

def CodexIdentity.lease (a : CodexIdentity) (state : String) (previous : Option Json) (currentAction : Json)
    (claims : List ActiveWriteClaim) (unknownWriteScope : Bool) : Json :=
  .obj (a.fields ++ [(js "state", .str (js state))] ++ a.ofTurn "intent" previous ++ a.ofTurn "extensions" previous ++
    [(js "current_action", currentAction), (js "claims", .arr (claims.map ActiveWriteClaim.toJson)),
      (js "unknown_write_scope", .bool unknownWriteScope)])

section
variable (E : Host)

/-- What an event of a tool finds stale is given to it. -/
abbrev StaleTurn : Type := Option Json → Except Failure (Option JsString)

/-- A tool that is about to run. -/
def codexPreTool (a : CodexIdentity) (activity : ToolActivity) (stale : StaleTurn) (previous : Option Json) :
    Except Failure (ActiveLeaseDecision E) := do
  match ← stale previous with
  | some reason => return .ignore reason
  | none => return .write (.ofJson E (a.lease (if activity.awaitCommand.isNone then "working" else "waiting") previous
      activity.currentAction activity.claims activity.unknownWriteScope))

/-- A tool that asks for permission: the action of the turn stays, if there is one. -/
def codexPermission (a : CodexIdentity) (activity : ToolActivity) (stale : StaleTurn) (previous : Option Json) :
    Except Failure (ActiveLeaseDecision E) := do
  match ← stale previous with
  | some reason => return .ignore reason
  | none =>
    match if a.sameTurn previous then previous.bind (Json.get (js "current_action")) else none with
    | none => return .write (.ofJson E (a.lease "waiting" previous activity.currentAction activity.claims
        activity.unknownWriteScope))
    | some stored =>
      let kept := activity.awaitCommand.isNone
      return .write (.ofJson E (a.lease "waiting" previous stored
        (if kept then (previous.map claimsOf).getD [] else activity.claims)
        (if kept then previous.any (fun lease => isTrue (lease.get (js "unknown_write_scope")))
          else activity.unknownWriteScope)))

def codexOptions (activity : ToolActivity) : UpdateOptions :=
  match activity.awaitCommand with
  | none => {}
  | some await => { ttlMs := await.leaseTtlMs }

end

/-! ## Waits that are committed -/

variable (E : Host)

/-- A hook has committed the lease of a wait: of this command, which is kept up to so many bytes, in this workstream,
with this time of the beginning in its action, by this call of the store. -/
inductive WaitCommitted : ℕ → JsString → JsString → Option ℤ → AwaitCommandClassification → StoreCall → Json → Prop
  | claude {a : ClaudeActor} {c : ClaudeHookCall E} {root : List JsString} {toolInput : Json} {scope : ToolScope}
      {files : ActiveFiles} {command workstreamId : JsString} {await : AwaitCommandClassification} {lease : Json}
      (hcommand : stringValue (toolInput.get (js "command")) = some command)
      (hscope : describeToolScope E root (js "Bash") toolInput = some scope)
      (hawait : scope.awaitCommand = some await) (hworkstream : admittedWorkstream E c = some workstreamId)
      (hlease : (settlePreTool E a c scope files).2 = .ok (.lease lease)) :
      WaitCommitted activeCommandBytes command workstreamId none await c.store lease
  | codexPreTool {a : CodexIdentity} {toolName : JsString} {toolInput : Json} {stale : StaleTurn} {call : StoreCall}
      {files : ActiveFiles} {command workstreamId time : JsString} {startedAt : ℤ} {await : AwaitCommandClassification}
      {lease : Json}
      (hcommand : stringValue (toolInput.get (js "command")) = some command)
      (htime : E.isoString startedAt = some time)
      (hawait : (shellActivity E toolName toolInput time).awaitCommand = some await)
      (hworkstream : a.workstreamId = some workstreamId)
      (hlease : (update E call a.key (codexPreTool E a (shellActivity E toolName toolInput time) stale)
        (codexOptions (shellActivity E toolName toolInput time)) files).2 = .ok (.lease lease)) :
      WaitCommitted activeIntentBytes command workstreamId (some startedAt) await call lease
  | codexPermission {a : CodexIdentity} {toolName : JsString} {toolInput : Json} {stale : StaleTurn} {call : StoreCall}
      {files : ActiveFiles} {command workstreamId time : JsString} {startedAt : ℤ} {await : AwaitCommandClassification}
      {lease : Json}
      (hcommand : stringValue (toolInput.get (js "command")) = some command)
      (htime : E.isoString startedAt = some time)
      (hawait : (shellActivity E toolName toolInput time).awaitCommand = some await)
      (hworkstream : a.workstreamId = some workstreamId)
      (hlease : (update E call a.key (codexPermission E a (shellActivity E toolName toolInput time) stale)
        (codexOptions (shellActivity E toolName toolInput time)) files).2 = .ok (.lease lease))
      (hown : ∀ p, actorPath E a.key = .ok p → ∀ current, committed E files p = some current →
        a.sameTurn (some (cloneLease E current.json)) = true →
          (cloneLease E current.json).get (js "current_action") = none) :
      WaitCommitted activeIntentBytes command workstreamId (some startedAt) await call lease
  /-- The action of the turn is the command that asks: it was told when the tool was about to run. -/
  | codexPermissionKept {a : CodexIdentity} {toolName : JsString} {toolInput : Json} {stale : StaleTurn}
      {call : StoreCall} {files : ActiveFiles} {command workstreamId time asked : JsString} {startedAt : ℤ}
      {await : AwaitCommandClassification} {lease : Json}
      (hcommand : stringValue (toolInput.get (js "command")) = some command)
      (htime : E.isoString startedAt = some time)
      (hawait : (shellActivity E toolName toolInput asked).awaitCommand = some await)
      (hworkstream : a.workstreamId = some workstreamId)
      (hlease : (update E call a.key (codexPermission E a (shellActivity E toolName toolInput asked) stale)
        (codexOptions (shellActivity E toolName toolInput asked)) files).2 = .ok (.lease lease))
      (hkept : ∀ p, actorPath E a.key = .ok p → ∃ current, committed E files p = some current ∧
        a.sameTurn (some (cloneLease E current.json)) = true ∧ (cloneLease E current.json).get (js "current_action") =
          some (shellActivity E toolName toolInput time).currentAction) :
      WaitCommitted activeIntentBytes command workstreamId (some startedAt) await call lease

/-- The reader sees the wait in the lease. -/
structure SeenWait (workstreamId : JsString) (startedAt : Option ℤ) (await : AwaitCommandClassification)
    (call : StoreCall) (lease : Json) : Prop where
  dependency : deriveReaderDependency E lease = some {
    kind := .peerUnread
    audience := .peer
    workstreamId
    startedAt := startedAt.bind E.isoString
    deadlineAt := startedAt.bind fun t => E.isoString (t + await.timeoutMs) }
  /-- The lease lives until the deadline, when it was written no earlier than the wait began. -/
  covered : ∀ t now, startedAt = some t → call.now = some now → t ≤ now →
    ∃ expires, (textAt? "expires_at" lease).bind E.dateParse = some expires ∧ t + await.timeoutMs ≤ expires

variable {E}

/-- A lease with the action of a wait. -/
structure WaitLease (limit : ℕ) (command workstreamId : JsString) (time : Option JsString) (lease : Json) : Prop where
  state : textAt? "state" lease = some (js "waiting")
  workstream : textAt? "workstream_id" lease = some workstreamId
  action : ∃ action content, lease.get (js "current_action") = some action ∧
    textAt? "kind" action = some (js "command") ∧ action.get (js "started_at") = time.map .str ∧
    action.get (js "command") = some content ∧
    textAt "text" content = if limit < byteLength command then truncateUtf8 command limit else command

/-- **What is kept of a command is the same wait**, if it keeps the first command. -/
theorem excerpt_await {command : JsString} {await : AwaitCommandClassification} {limit : ℕ}
    (h : classifyAwaitCommand E command = some await) (hfirst : byteLength (firstSimpleCommand command) ≤ limit) :
    classifyAwaitCommand E (if limit < byteLength command then truncateUtf8 command limit else command) =
      some await := by
  split
  · obtain ⟨rest, hsplit, hhead, hkeeps⟩ := classifyAwaitCommand_first h
    have hascii : ∀ u ∈ rest.head?, u.toNat < 128 := by
      intro u hu
      have hstop := hhead u hu
      simp only [isShellControl, Bool.or_eq_true, beq_iff_eq] at hstop
      rcases hstop with ((((((rfl | rfl) | rfl) | rfl) | rfl) | rfl) | rfl) | rfl
      all_goals decide
    obtain ⟨r, hcut, hstops⟩ := truncateUtf8_keeps hfirst hascii
    rw [← hsplit] at hcut
    rw [hcut]
    exact hkeeps r hstops
  · exact h

theorem workstream_valid {lease : Json} {workstreamId : JsString} (hvalid : validateActiveLease E lease = [])
    (h : textAt? "workstream_id" lease = some workstreamId) : isWorkstreamId workstreamId = true := by
  have hget : lease.get (js "workstream_id") = some (.str workstreamId) := by
    unfold textAt? at h
    split at h
    · next s hs =>
      cases h
      exact hs
    · cases h
  unfold validateActiveLease validateObject at hvalid
  split at hvalid
  · simp only [List.append_eq_nil_iff] at hvalid
    rw [hget] at hvalid
    have hoptional : validateString isWorkstreamId (some (.str workstreamId)) (leasePath "workstream_id") = [] := by
      have hall : validateOptional (some (Json.str workstreamId)) (leasePath "workstream_id")
          (validateString isWorkstreamId) = [] := by
        tauto
      exact hall
    unfold validateString at hoptional
    dsimp only at hoptional
    split_ifs at hoptional with hempty hpattern
    exact hpattern
  · cases hvalid

/-- **The reader sees a wait** in a lease with its action. -/
theorem WaitLease.seen {limit : ℕ} {command workstreamId : JsString} {startedAt : Option ℤ}
    {await : AwaitCommandClassification} {call : StoreCall} {lease : Json}
    (h : WaitLease limit command workstreamId (startedAt.bind E.isoString) lease)
    (hstarted : ∀ t, startedAt = some t → (E.isoString t).isSome = true)
    (hawait : classifyAwaitCommand E command = some await) (hfirst : byteLength (firstSimpleCommand command) ≤ limit)
    (hvalid : validateActiveLease E lease = [])
    (htimes : ∃ now expires, call.now = some now ∧ E.isoString (now + await.leaseTtlMs) = some expires ∧
      lease.get (js "expires_at") = some (.str expires)) : SeenWait E workstreamId startedAt await call lease := by
  obtain ⟨hstate, hworkstream, action, content, haction, hkind, htime, hcontent, htext⟩ := h
  constructor
  · have hscope := workstream_valid hvalid hworkstream
    have hclassified := excerpt_await hawait hfirst
    rw [← htext] at hclassified
    have hrun : deriveReaderDependency E lease = some {
        kind := .peerUnread
        audience := .peer
        workstreamId
        startedAt := validRfc3339 E (textAt? "started_at" action)
        deadlineAt := (validRfc3339 E (textAt? "started_at" action)).bind fun s =>
          addMilliseconds E s await.timeoutMs } := by
      have hfilter : (some workstreamId).filter isWorkstreamId = some workstreamId := by
        rw [Option.filter_some, if_pos hscope]
      simp [deriveReaderDependency, hstate, hworkstream, hfilter, haction, hkind, hcontent, hclassified]
    rw [hrun]
    cases startedAt with
    | none =>
      have hnone : textAt? "started_at" action = none := by
        rw [textAt?, htime]
        rfl
      rw [hnone]
      rfl
    | some t =>
      obtain ⟨s, hs⟩ := Option.isSome_iff_exists.1 (hstarted t rfl)
      obtain ⟨hparse, -, hlen⟩ := E.isoString_parse t s hs
      rw [Option.bind_some, hs] at htime
      obtain ⟨path, hpath⟩ := action_valid hvalid haction htime
      have hsome : textAt? "started_at" action = some s := by
        rw [textAt?, htime]
        rfl
      rw [hsome, validRfc3339_of_valid hpath hlen]
      simp [hs, addMilliseconds, hparse]
  · rintro t now rfl hnow hle
    obtain ⟨now', expires, hnow', hexpires, hget⟩ := htimes
    rw [hnow] at hnow'
    cases hnow'
    have hbounds := (classifyAwaitCommand_bounds hawait).2.2
    have hgrace : (0 : ℤ) ≤ awaitLeaseGraceMs := by decide
    refine ⟨now + await.leaseTtlMs, ?_, by omega⟩
    rw [textAt?, hget]
    exact (E.isoString_parse _ _ hexpires).1

/-! ## What the hooks write -/

/-- The action of a shell command of Claude. -/
def bashAction (command : JsString) : Json :=
  .obj [(js "kind", .str (js "command")), (js "tool_name", .str (js "Bash")),
    (js "command", excerptContent command activeCommandBytes)]

theorem bash_scope {root : List JsString} {toolInput : Json} {scope : ToolScope} {command : JsString}
    (hcommand : stringValue (toolInput.get (js "command")) = some command)
    (h : describeToolScope E root (js "Bash") toolInput = some scope) :
    scope.awaitCommand = classifyAwaitCommand E command ∧ scope.action = bashAction command := by
  have hchange : claudeFileChangeTools.any (fun t => js t == js "Bash") = false := by decide
  simp only [describeToolScope, hchange, Bool.false_eq_true, if_false, if_true, hcommand, Option.getD_some] at h
  cases h
  exact ⟨rfl, rfl⟩

/-- What an update writes is what the reader sees. -/
theorem WaitLease.of_update {limit : ℕ} {command workstreamId : JsString} {time : Option JsString}
    {input lease : Json} (h : WaitLease limit command workstreamId time input)
    (hkept : ∀ key, key ∉ generatedFields → lease.get (js key) = input.get (js key)) :
    WaitLease limit command workstreamId time lease := by
  obtain ⟨hstate, hworkstream, haction⟩ := h
  have htext : ∀ key, key ∉ generatedFields → textAt? key lease = textAt? key input := by
    intro key hkey
    rw [textAt?, textAt?, hkept key hkey]
  refine ⟨?_, ?_, ?_⟩
  · rw [htext "state" (by decide), hstate]
  · rw [htext "workstream_id" (by decide), hworkstream]
  · rw [hkept "current_action" (by decide)]
    exact haction

theorem claude_wait {a : ClaudeActor} {workstreamId command : JsString} {intent : Option Json} :
    WaitLease activeCommandBytes command workstreamId none (activityJson a (some workstreamId) "waiting" intent
      (some (bashAction command)) [] false) := by
  unfold activityJson identityFields optionalField
  refine ⟨?_, ?_, bashAction command, excerptContent command activeCommandBytes, ?_, ?_, ?_, ?_, ?_⟩
  · simp [textAt?, Json.get, Json.lookup, js_inj]
  · simp [textAt?, Json.get, Json.lookup, js_inj]
  · rcases intent with _ | intent
    all_goals simp [Json.get, Json.lookup, js_inj]
  · simp [bashAction, textAt?, Json.get, Json.lookup]
  · simp [bashAction, Json.get, Json.lookup, js_inj]
  · simp [bashAction, Json.get, Json.lookup, js_inj]
  · simp [textAt, excerptContent, Json.get, Json.lookup]

theorem codex_wait {a : CodexIdentity} {toolName workstreamId command time : JsString} {toolInput : Json}
    {previous : Option Json} {claims : List ActiveWriteClaim} {unknownWriteScope : Bool}
    (hcommand : stringValue (toolInput.get (js "command")) = some command)
    (hworkstream : a.workstreamId = some workstreamId) :
    WaitLease activeIntentBytes command workstreamId (some time) (a.lease "waiting" previous
      (shellActivity E toolName toolInput time).currentAction claims unknownWriteScope) := by
  unfold CodexIdentity.lease CodexIdentity.fields CodexIdentity.ofTurn
  rw [hworkstream]
  generalize (if a.sameTurn previous then previous.bind (Json.get (js "intent")) else none) = intent
  generalize (if a.sameTurn previous then previous.bind (Json.get (js "extensions")) else none) = extensions
  refine ⟨?_, ?_, (shellActivity E toolName toolInput time).currentAction, boundedContent command activeIntentBytes,
    ?_, ?_, ?_, ?_, ?_⟩
  · rcases a.turnId with _ | turn
    all_goals simp [textAt?, optionalField, Json.get, Json.lookup, js_inj]
  · simp [textAt?, optionalField, Json.get, Json.lookup, js_inj]
  · rcases a.turnId with _ | turn
    all_goals rcases intent with _ | intent
    all_goals rcases extensions with _ | extensions
    all_goals simp [optionalField, Json.get, Json.lookup, js_inj]
  · simp [textAt?, shellActivity, Json.get, Json.lookup]
  · rw [shellActivity, hcommand]
    simp [optionalField, Json.get, Json.lookup, js_inj]
  · rw [shellActivity, hcommand]
    simp [optionalField, Json.get, Json.lookup, js_inj]
  · simp [textAt, boundedContent, Json.get, Json.lookup]

theorem shell_await {toolName command time : JsString} {toolInput : Json} {await : AwaitCommandClassification}
    (hcommand : stringValue (toolInput.get (js "command")) = some command)
    (h : (shellActivity E toolName toolInput time).awaitCommand = some await) :
    classifyAwaitCommand E command = some await := by
  simpa [shellActivity, hcommand] using h

/-- An update that is written is no stand-in. -/
theorem ofJson_json {v : Json} (h : isObject (some (JsonInput.ofJson E v).json) = true) :
    (JsonInput.ofJson E v).json = v := by
  unfold JsonInput.ofJson at h ⊢
  split at h
  · next hplain => rw [dif_pos hplain]
  · cases h

theorem codex_seen {a : CodexIdentity} {toolName workstreamId command time : JsString} {toolInput lease : Json}
    {previous : Option Json} {claims : List ActiveWriteClaim} {unknownWriteScope : Bool} {startedAt : ℤ}
    {await : AwaitCommandClassification} {call : StoreCall}
    (hcommand : stringValue (toolInput.get (js "command")) = some command)
    (hworkstream : a.workstreamId = some workstreamId) (htime : E.isoString startedAt = some time)
    (hkept : ∀ key, key ∉ generatedFields → lease.get (js key) = (a.lease "waiting" previous
      (shellActivity E toolName toolInput time).currentAction claims unknownWriteScope).get (js key))
    (hawait : classifyAwaitCommand E command = some await)
    (hfirst : byteLength (firstSimpleCommand command) ≤ activeIntentBytes)
    (hvalid : validateActiveLease E lease = [])
    (htimes : ∃ now expires, call.now = some now ∧ E.isoString (now + await.leaseTtlMs) = some expires ∧
      lease.get (js "expires_at") = some (.str expires)) :
    SeenWait E workstreamId (some startedAt) await call lease := by
  have hlease := (codex_wait hcommand hworkstream).of_update hkept
  have hstarted : WaitLease activeIntentBytes command workstreamId ((some startedAt).bind E.isoString) lease := by
    rw [Option.bind_some, htime]
    exact hlease
  refine hstarted.seen ?_ hawait hfirst hvalid htimes
  rintro t ⟨⟩
  rw [htime]
  rfl

/-- **The reader sees the wait that the hook saw**, if the first command fits what the lease keeps. -/
theorem await_lease_seen {limit : ℕ} {command workstreamId : JsString} {startedAt : Option ℤ}
    {await : AwaitCommandClassification} {call : StoreCall} {lease : Json}
    (h : WaitCommitted E limit command workstreamId startedAt await call lease)
    (hfirst : byteLength (firstSimpleCommand command) ≤ limit) :
    SeenWait E workstreamId startedAt await call lease := by
  cases h with
  | @claude a c root toolInput scope files _ _ _ _ hcommand hscope hawait hworkstream hlease =>
    obtain ⟨hclassified, haction⟩ := bash_scope hcommand hscope
    rw [hawait] at hclassified
    obtain ⟨p, input, -, hdecided, hobject, hkept, hvalid, htimes⟩ := update_lease hlease
    rw [preToolOptions, hawait] at htimes
    have hwritten : ∃ intent, input = activity E a (some workstreamId) "waiting" intent (some scope.action) [] false := by
      have hdecision := Except.ok.inj hdecided
      rw [preToolDecision] at hdecision
      split at hdecision
      · cases hdecision
      · rw [hawait, hworkstream] at hdecision
        cases hdecision
        exact ⟨_, rfl⟩
    obtain ⟨intent, rfl⟩ := hwritten
    rw [activity_json hobject, haction] at hkept
    exact (claude_wait.of_update hkept).seen (by rintro t ⟨⟩) hclassified.symm hfirst hvalid htimes
  | @codexPreTool a toolName toolInput stale _ files _ _ time startedAt _ _ hcommand htime hawait hworkstream hlease =>
    obtain ⟨p, input, -, hdecided, hobject, hkept, hvalid, htimes⟩ := update_lease hlease
    rw [codexOptions, hawait] at htimes
    simp only [codexPreTool, Outcome.bind_ok] at hdecided
    obtain ⟨reason, -, hdecided⟩ := hdecided
    cases reason with
    | some reason => cases hdecided
    | none =>
      cases hdecided
      rw [ofJson_json hobject, hawait] at hkept
      exact codex_seen hcommand hworkstream htime hkept (shell_await hcommand hawait) hfirst hvalid htimes
  | @codexPermission a toolName toolInput stale _ files _ _ time startedAt _ _ hcommand htime hawait hworkstream hlease
      hown =>
    obtain ⟨p, input, hp, hdecided, hobject, hkept, hvalid, htimes⟩ := update_lease hlease
    rw [codexOptions, hawait] at htimes
    simp only [codexPermission, Outcome.bind_ok] at hdecided
    obtain ⟨reason, -, hdecided⟩ := hdecided
    have hnone : (if a.sameTurn ((committed E files p).map fun lease => cloneLease E lease.json) then
        ((committed E files p).map fun lease => cloneLease E lease.json).bind (Json.get (js "current_action"))
        else none) = none := by
      split
      · next hsame =>
        cases hcurrent : committed E files p with
        | none => rfl
        | some current =>
          rw [hcurrent] at hsame
          exact hown p hp current hcurrent hsame
      · rfl
    cases reason with
    | some reason => cases hdecided
    | none =>
      dsimp only at hdecided
      rw [hnone] at hdecided
      cases hdecided
      rw [ofJson_json hobject] at hkept
      exact codex_seen hcommand hworkstream htime hkept (shell_await hcommand hawait) hfirst hvalid htimes
  | @codexPermissionKept a toolName toolInput stale _ files _ _ time asked startedAt _ _ hcommand htime hawait
      hworkstream hlease hstored =>
    obtain ⟨p, input, hp, hdecided, hobject, hkept, hvalid, htimes⟩ := update_lease hlease
    rw [codexOptions, hawait] at htimes
    simp only [codexPermission, Outcome.bind_ok] at hdecided
    obtain ⟨reason, -, hdecided⟩ := hdecided
    obtain ⟨current, hcurrent, hsame, haction⟩ := hstored p hp
    cases reason with
    | some reason => cases hdecided
    | none =>
      dsimp only at hdecided
      rw [hcurrent, Option.map_some, if_pos hsame, Option.bind_some, haction] at hdecided
      cases hdecided
      rw [ofJson_json hobject] at hkept
      exact codex_seen hcommand hworkstream htime hkept (shell_await hcommand hawait) hfirst hvalid htimes

/-! ## A short wait, and one that is cut -/

def waitHost : Host :=
  Host.ofTables [] [(0, js "1970-01-01T00:00:00.000Z"), (1, js "1970-01-01T00:00:00.001Z"),
    (1000, js "1970-01-01T00:00:01.000Z"), (601000, js "1970-01-01T00:10:01.000Z"),
    (661000, js "1970-01-01T00:11:01.000Z")] (by decide)

def waitWorkstream : JsString := js "ws_" ++ List.replicate 32 48

def waitIdentity : CodexIdentity where
  leaseId := js "lease_" ++ List.replicate 32 48
  sessionId := js "ses_" ++ List.replicate 32 48
  agentId := js "main"
  workstreamId := some waitWorkstream
  turnId := none

def shellInput (command : JsString) : Json := .obj [(js "command", .str command)]

/-- The lease an update returns. -/
def returnedLease : Except ActiveFailure ActiveLeaseUpdateResult → Option Json
  | .ok (.lease lease) => some lease
  | _ => none

theorem returnedLease_some {r : Except ActiveFailure ActiveLeaseUpdateResult} {lease : Json}
    (h : returnedLease r = some lease) : r = .ok (.lease lease) := by
  unfold returnedLease at h
  split at h
  · cases h
    rfl
  · cases h

theorem short_wait_committed : ∃ lease, WaitCommitted waitHost activeIntentBytes (js "barbaro await") waitWorkstream
    (some 1000) ⟨600000, 660000⟩ { now := some 1000 } lease := by
  have hrun : (returnedLease (update waitHost { now := some 1000 } waitIdentity.key
      (codexPreTool waitHost waitIdentity (shellActivity waitHost (js "exec") (shellInput (js "barbaro await"))
        (js "1970-01-01T00:00:01.000Z")) (fun _ => .ok none))
      (codexOptions (shellActivity waitHost (js "exec") (shellInput (js "barbaro await"))
        (js "1970-01-01T00:00:01.000Z"))) fun _ => none).2).isSome = true := by
    decide +kernel
  obtain ⟨lease, hlease⟩ := Option.isSome_iff_exists.1 hrun
  exact ⟨lease, .codexPreTool rfl (by decide) (by decide) rfl (returnedLease_some hlease)⟩

/-- The reader sees a wait of ten minutes. -/
theorem await_lease_seen_short : ∃ lease, SeenWait waitHost waitWorkstream (some 1000) ⟨600000, 660000⟩
    { now := some 1000 } lease := by
  obtain ⟨lease, h⟩ := short_wait_committed
  exact ⟨lease, await_lease_seen h (by decide)⟩

/-- A wait with more blanks between its words than the lease keeps of it. -/
def spacedWait : JsString := js "barbaro" ++ List.replicate 512 32 ++ js "await"

def spacedCall : ClaudeHookCall waitHost where
  admission := { joined := true, initiated := false, participation := some {
    provider := js "claude"
    sessionId := waitIdentity.sessionId
    joinedAt := js "1970-01-01T00:00:00.000Z"
    workstreamId := some waitWorkstream
    memberships := none } }
  store := { now := some 1000 }

def spacedActor : ClaudeActor := ⟨waitIdentity.leaseId, waitIdentity.sessionId, js "main"⟩

def spacedScope : ToolScope where
  action := bashAction spacedWait
  claims := []
  unknownWriteScope := false
  awaitCommand := some ⟨600000, 660000⟩

/-- **A wait that is cut**: the hook commits it, and the reader does not see it. -/
theorem await_lease_cut : ¬ ∀ (limit : ℕ) (command workstreamId : JsString) (startedAt : Option ℤ)
    (await : AwaitCommandClassification) (call : StoreCall) (lease : Json),
    WaitCommitted waitHost limit command workstreamId startedAt await call lease →
      SeenWait waitHost workstreamId startedAt await call lease := by
  intro hall
  have hclassified : classifyAwaitCommand waitHost spacedWait = some ⟨600000, 660000⟩ := by decide +kernel
  have hscope : describeToolScope waitHost [] (js "Bash") (shellInput spacedWait) = some spacedScope := by
    have hchange : claudeFileChangeTools.any (fun t => js t == js "Bash") = false := by decide
    have hcommand : stringValue ((shellInput spacedWait).get (js "command")) = some spacedWait := rfl
    simp only [describeToolScope, hchange, Bool.false_eq_true, if_false, if_true, hcommand, Option.getD_some,
      hclassified]
    rfl
  have hrun : (returnedLease (settlePreTool waitHost spacedActor spacedCall spacedScope fun _ => none).2).any
      (fun lease => (deriveReaderDependency waitHost lease).isNone) = true := by
    decide +kernel
  obtain ⟨lease, hlease, hunseen⟩ := (Option.any_eq_true _ _).1 hrun
  have hseen := hall activeCommandBytes spacedWait waitWorkstream none ⟨600000, 660000⟩ spacedCall.store lease
    (.claude (c := spacedCall) rfl hscope rfl rfl (returnedLease_some hlease))
  rw [hseen.dependency] at hunseen
  cases hunseen

end Barbaro.Hooks
