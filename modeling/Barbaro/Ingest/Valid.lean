import Barbaro.Ingest.Journal
import Barbaro.Output.AppendUnique

/-!
# Attempts are valid

Every record a hook builds passes the checks of the journal's readers.

* `AttemptOk`: what a record in memory is made of.
* `AttemptOk.entry`: its JSON form is a valid entry of the journal.
* `beginAttempt_ok`, `observeAttempt_ok`, `finishAttempt_ok`, `migrateLegacyAttempt_ok`: the
  records that hooks build are of that kind.
-/

namespace Barbaro.Ingest

variable {E : Host}

/-! ## What a record is made of -/

/-- A date of at most 64 bytes. -/
def TimeOk (E : Host) (s : JsString) : Prop := isTimestamp E (some (.str s)) = true

def IdentityOk (i : FileIdentity) : Prop :=
  isIdentityPart (some (.str i.device)) = true ∧ isIdentityPart (some (.str i.inode)) = true ∧
    isIdentityPart (some (.str i.birthtimeNs)) = true

structure SnapshotOk (E : Host) (s : IngestTranscriptSnapshot) : Prop where
  observedAt : TimeOk E s.observedAt
  observedSize : s.observedSize ≤ maxSafeInteger
  fileIdentity : IdentityOk s.fileIdentity

structure TransitionOk (E : Host) (t : IngestObservationTransition) : Prop where
  snapshot : SnapshotOk E t.toIngestTranscriptSnapshot
  firstObservedAt : TimeOk E t.firstObservedAt
  repeatCount : 1 ≤ t.repeatCount ∧ t.repeatCount ≤ maxSafeInteger

/-- A summary of observations: empty, or with a first, a last and some transitions. -/
structure SummaryOk (E : Host) (o : IngestObservationSummary) : Prop where
  count : o.count ≤ maxSafeInteger
  transitions : ∀ t ∈ o.sizeTransitions, TransitionOk E t
  few : o.sizeTransitions.length ≤ maxIngestObservationTransitions
  /-- No counter runs ahead of the observations. -/
  bounds : o.droppedTransitions + o.sizeTransitions.length ≤ o.count ∧
    ∀ t ∈ o.sizeTransitions, t.repeatCount ≤ o.count
  empty : o.count = 0 → o.first = none ∧ o.last = none ∧ o.sizeTransitions = []
  ends : o.count ≠ 0 → (∃ s, o.first = some s ∧ SnapshotOk E s) ∧ (∃ s, o.last = some s ∧ SnapshotOk E s) ∧
    o.sizeTransitions ≠ []

structure EndpointOk (c : IngestCheckpointEndpoint) : Prop where
  fileIdentity : IdentityOk c.fileIdentity
  nextLineNumber : 1 ≤ c.nextLineNumber ∧ c.nextLineNumber ≤ maxSafeInteger
  byteOffset : c.byteOffset ≤ c.observedSize
  observedSize : c.observedSize ≤ maxSafeInteger

structure TriggerOk (t : IngestAttemptTrigger) : Prop where
  nativeTurnId : ∀ s, t.nativeTurnId = some s → byteLength s ≤ maxIdBytes
  turnId : ∀ s, t.turnId = some s → byteLength s ≤ maxIdBytes
  agentId : ∀ s, t.agentId = some s → byteLength s ≤ maxIdBytes
  message : ∀ m, t.lastAssistantMessage = some m →
    isSha256Hex m.sha256 = true ∧ m.utf8Bytes ≤ maxSafeInteger

/-- A bounded list of bounded ids. -/
def IdsOk (ids : List JsString) : Prop :=
  ids.length ≤ maxRunnerArrayItems ∧ ∀ s ∈ ids, byteLength s ≤ maxIdBytes

/-- **A record of an attempt**, within the limits of the journal. -/
structure AttemptOk (E : Host) (a : BarbaroIngestAttempt) : Prop where
  attemptId : a.attemptId ≠ [] ∧ byteLength a.attemptId ≤ maxIdBytes
  event : a.event ≠ [] ∧ byteLength a.event ≤ maxEventBytes
  trigger : ∀ t, a.trigger = some t → TriggerOk t
  triggeredAt : TimeOk E a.triggeredAt
  pid : 1 ≤ a.pid ∧ a.pid ≤ maxSafeInteger
  startedAt : TimeOk E a.startedAt
  observations : SummaryOk E a.observations
  checkpointBefore : ∀ c, a.checkpointBefore = some c → EndpointOk c
  checkpointAfter : ∀ c, a.checkpointAfter = some c → EndpointOk c
  turnsAppended : a.turnsAppended ≤ maxSafeInteger
  runnerInput : ∀ fs, a.runnerInput = some fs → isRunnerInput (some (.obj fs)) = true ∧
    (Json.obj fs).WellFormed E.float
  pendingBackgroundIds : IdsOk a.pendingBackgroundIds
  pendingAgentIds : IdsOk a.pendingAgentIds
  withheldReason : ∀ s, a.withheldReason = some s → byteLength s ≤ maxRunnerStringBytes
  publishBlocker : ∀ s, a.publishBlocker = some s → byteLength s ≤ maxRunnerStringBytes
  finishedAt : ∀ s, a.finishedAt = some s → TimeOk E s
  outcome : a.finishedAt.isNone = a.outcome.isNone
  autopsiedAt : ∀ s, a.autopsiedAt = some s → TimeOk E s

/-- **A valid entry of the journal**, its members in any order. -/
structure Entry (E : Host) (v : Json) : Prop where
  fields : ∃ fs, v = .obj fs ∧ (fs.map (·.1)).Nodup ∧ ∀ f ∈ fs, Written E.float f.2
  valid : isAttemptV2 E v = true
  /-- The transitions that were dropped and those that are kept can be counted. -/
  transitions : ∀ o, v.get (js "observations") = some o →
    intAt "dropped_transitions" o + ((itemsAt? "size_transitions" o).getD []).length ≤ maxSafeInteger

/-! ## The JSON of the parts -/

theorem Written.nat {n : ℕ} (h : n ≤ maxSafeInteger) : Written E.float (natJson n) := Written.int (by simpa using h)

theorem safeNat {n : ℕ} (h : n ≤ maxSafeInteger) : isSafeNonNegativeInteger (some (natJson n)) = true := by
  simp only [isSafeNonNegativeInteger, isSafeInteger, natJson, Bool.and_eq_true, decide_eq_true_eq]
  omega

theorem safePositive {n : ℕ} (h : 1 ≤ n ∧ n ≤ maxSafeInteger) : isSafePositiveInteger (some (natJson n)) = true := by
  simp only [isSafePositiveInteger, isSafeInteger, natJson, Bool.and_eq_true, decide_eq_true_eq]
  omega

theorem identity_ok {i : FileIdentity} (h : IdentityOk i) :
    isFileIdentity (some (identityJson i)) = true ∧ Written E.float (identityJson i) := by
  have hord : orderedKeys (["birthtime_ns", "device", "inode"].map js) = true := by decide
  refine ⟨?_, Written.objectOf (by simp [Written.str]) hord⟩
  have h1 : (identityJson i).get (js "device") = some (.str i.device) := get_objectOf (by simp) hord
  have h2 : (identityJson i).get (js "inode") = some (.str i.inode) := get_objectOf (by simp) hord
  have h3 : (identityJson i).get (js "birthtime_ns") = some (.str i.birthtimeNs) :=
    get_objectOf (by simp) hord
  have hkeys : hasOnlyKeys ["birthtime_ns", "device", "inode"] (identityJson i) = true := hasOnlyKeys_objectOf
  simp only [isFileIdentity, hkeys, h1, h2, h3, h.1, h.2.1, h.2.2, Bool.and_self]

theorem snapshot_ok {s : IngestTranscriptSnapshot} (h : SnapshotOk E s) :
    isTranscriptSnapshot E (some s.toJson) = true ∧ Written E.float s.toJson := by
  have hord : orderedKeys (["file_identity", "observed_at", "observed_size"].map js) = true := by decide
  obtain ⟨hi, hw⟩ := identity_ok (E := E) h.fileIdentity
  refine ⟨?_, Written.objectOf (by simp [Written.str, hw, Written.nat h.observedSize]) hord⟩
  have h1 : s.toJson.get (js "observed_at") = some (.str s.observedAt) := get_objectOf (by simp) hord
  have h2 : s.toJson.get (js "observed_size") = some (natJson s.observedSize) :=
    get_objectOf (by simp) hord
  have h3 : s.toJson.get (js "file_identity") = some (identityJson s.fileIdentity) :=
    get_objectOf (by simp) hord
  have hkeys : hasOnlyKeys ["file_identity", "observed_at", "observed_size"] s.toJson = true :=
    hasOnlyKeys_objectOf
  have htime : isTimestamp E (some (.str s.observedAt)) = true := h.observedAt
  simp only [isTranscriptSnapshot, hkeys, h1, h2, h3, htime, safeNat h.observedSize, hi, Bool.and_self]

theorem transition_ok {t : IngestObservationTransition} (h : TransitionOk E t) :
    isObservationTransition E t.toJson = true ∧ Written E.float t.toJson := by
  have hord : orderedKeys (["file_identity", "first_observed_at", "observed_at", "observed_size",
      "repeat_count"].map js) = true := by decide
  obtain ⟨hi, hw⟩ := identity_ok (E := E) h.snapshot.fileIdentity
  refine ⟨?_, Written.objectOf (by
    simp [Written.str, hw, Written.nat h.snapshot.observedSize, Written.nat h.repeatCount.2]) hord⟩
  have h1 : t.toJson.get (js "observed_at") = some (.str t.observedAt) := get_objectOf (by simp) hord
  have h2 : t.toJson.get (js "observed_size") = some (natJson t.observedSize) :=
    get_objectOf (by simp) hord
  have h3 : t.toJson.get (js "file_identity") = some (identityJson t.fileIdentity) :=
    get_objectOf (by simp) hord
  have h4 : t.toJson.get (js "first_observed_at") = some (.str t.firstObservedAt) :=
    get_objectOf (by simp) hord
  have h5 : t.toJson.get (js "repeat_count") = some (natJson t.repeatCount) := get_objectOf (by simp) hord
  have hkeys : hasOnlyKeys ["file_identity", "first_observed_at", "observed_at", "observed_size",
      "repeat_count"] t.toJson = true := hasOnlyKeys_objectOf
  have htime : isTimestamp E (some (.str t.observedAt)) = true := h.snapshot.observedAt
  have hfirst : isTimestamp E (some (.str t.firstObservedAt)) = true := h.firstObservedAt
  simp only [isObservationTransition, hkeys, h1, h2, h3, h4, h5, htime, hfirst,
    safeNat h.snapshot.observedSize, safePositive h.repeatCount, hi, Bool.and_self]

theorem orNull_written {o : Option Json} (h : ∀ v, o = some v → Written E.float v) {v : Json}
    (hv : orNull o = some v) : Written E.float v := by
  rcases o with _ | w
  · cases hv
    exact ⟨trivial, trivial⟩
  · cases hv
    exact h _ rfl

theorem summary_ordered :
    orderedKeys (["count", "dropped_transitions", "first", "last", "size_transitions"].map js) = true := by decide

theorem summary_ok {o : IngestObservationSummary} (h : SummaryOk E o) :
    isObservationSummary E (some o.toJson) = true ∧ Written E.float o.toJson := by
  have hord := summary_ordered
  have hdropped : o.droppedTransitions ≤ maxSafeInteger := by
    have := h.bounds.1
    have := h.count
    omega
  have harray : Written E.float (.arr (o.sizeTransitions.map IngestObservationTransition.toJson)) := by
    refine Written.arr fun v hv => ?_
    obtain ⟨t, ht, rfl⟩ := List.mem_map.1 hv
    exact (transition_ok (h.transitions t ht)).2
  have hends : (∀ s, o.first = some s → SnapshotOk E s) ∧ ∀ s, o.last = some s → SnapshotOk E s := by
    rcases Nat.eq_zero_or_pos o.count with hzero | hpos
    · obtain ⟨hf, hl, -⟩ := h.empty hzero
      refine ⟨fun s hs => ?_, fun s hs => ?_⟩
      · rw [hf] at hs
        cases hs
      · rw [hl] at hs
        cases hs
    · obtain ⟨⟨f, hf, hfok⟩, ⟨l, hl, hlok⟩, -⟩ := h.ends (by omega)
      refine ⟨fun s hs => ?_, fun s hs => ?_⟩
      · rw [hf] at hs
        cases hs
        exact hfok
      · rw [hl] at hs
        cases hs
        exact hlok
  have hwritten : Written E.float o.toJson := by
    refine Written.objectOf ?_ hord
    simp only [List.mem_cons, List.not_mem_nil, or_false, forall_eq_or_imp, forall_eq, Option.some.injEq]
    refine ⟨fun v hv => hv ▸ Written.nat h.count, fun v hv => hv ▸ Written.nat hdropped, fun v hv => ?_,
      fun v hv => ?_, fun v hv => hv ▸ harray⟩
    · refine orNull_written (fun w hw => ?_) hv
      obtain ⟨s, hs, rfl⟩ := Option.map_eq_some_iff.1 hw
      exact (snapshot_ok (hends.1 s hs)).2
    · refine orNull_written (fun w hw => ?_) hv
      obtain ⟨s, hs, rfl⟩ := Option.map_eq_some_iff.1 hw
      exact (snapshot_ok (hends.2 s hs)).2
  refine ⟨?_, hwritten⟩
  have h1 : o.toJson.get (js "count") = some (natJson o.count) := get_objectOf (by simp) hord
  have h2 : o.toJson.get (js "dropped_transitions") = some (natJson o.droppedTransitions) :=
    get_objectOf (by simp) hord
  have h3 : o.toJson.get (js "first") = orNull (o.first.map IngestTranscriptSnapshot.toJson) :=
    get_objectOf (by simp) hord
  have h4 : o.toJson.get (js "last") = orNull (o.last.map IngestTranscriptSnapshot.toJson) :=
    get_objectOf (by simp) hord
  have h5 : o.toJson.get (js "size_transitions") =
      some (.arr (o.sizeTransitions.map IngestObservationTransition.toJson)) :=
    get_objectOf (by simp) hord
  have hkeys : hasOnlyKeys ["count", "dropped_transitions", "first", "last", "size_transitions"] o.toJson =
      true := hasOnlyKeys_objectOf
  have hall : isBoundedArray maxIngestObservationTransitions (isObservationTransition E)
      (some (.arr (o.sizeTransitions.map IngestObservationTransition.toJson))) = true := by
    simp only [isBoundedArray, Bool.and_eq_true, decide_eq_true_eq, List.length_map, List.all_map,
      List.all_eq_true, Function.comp]
    exact ⟨h.few, fun t ht => (transition_ok (h.transitions t ht)).1⟩
  simp only [isObservationSummary, hkeys, h1, h2, h3, h4, h5, safeNat h.count, safeNat hdropped, hall,
    Bool.and_self, Bool.true_and]
  rcases Nat.eq_zero_or_pos o.count with hzero | hpos
  · obtain ⟨hf, hl, ht⟩ := h.empty hzero
    have hz : isZero (some (natJson o.count)) = true := by
      rw [hzero]
      rfl
    rw [if_pos hz, hf, hl, ht]
    rfl
  · obtain ⟨⟨f, hf, hfok⟩, ⟨l, hl, hlok⟩, hne⟩ := h.ends (by omega)
    have hz : ¬ isZero (some (natJson o.count)) = true := by
      simp only [isZero, natJson, beq_iff_eq]
      omega
    rw [if_neg hz, hf, hl]
    simp only [Option.map_some, orNull, (snapshot_ok hfok).1, (snapshot_ok hlok).1, isEmptyArray,
      List.isEmpty_map, Bool.true_and, Bool.not_eq_true', List.isEmpty_eq_false_iff]
    exact hne

theorem endpoint_ok {c : IngestCheckpointEndpoint} (h : EndpointOk c) :
    isCheckpointEndpoint (some c.toJson) = true ∧ Written E.float c.toJson := by
  have hord : orderedKeys (["byte_offset", "file_identity", "next_line_number",
      "observed_size"].map js) = true := by decide
  obtain ⟨hi, hw⟩ := identity_ok (E := E) h.fileIdentity
  have hoffset : c.byteOffset ≤ maxSafeInteger := le_trans h.byteOffset h.observedSize
  refine ⟨?_, Written.objectOf (by
    simp [hw, Written.nat h.observedSize, Written.nat h.nextLineNumber.2, Written.nat hoffset]) hord⟩
  have h1 : c.toJson.get (js "byte_offset") = some (natJson c.byteOffset) := get_objectOf (by simp) hord
  have h2 : c.toJson.get (js "next_line_number") = some (natJson c.nextLineNumber) :=
    get_objectOf (by simp) hord
  have h3 : c.toJson.get (js "file_identity") = some (identityJson c.fileIdentity) :=
    get_objectOf (by simp) hord
  have h4 : c.toJson.get (js "observed_size") = some (natJson c.observedSize) :=
    get_objectOf (by simp) hord
  have hkeys : hasOnlyKeys ["byte_offset", "file_identity", "next_line_number", "observed_size"] c.toJson =
      true := hasOnlyKeys_objectOf
  have hle : intAt "byte_offset" c.toJson ≤ intAt "observed_size" c.toJson := by
    simp only [intAt, h1, h4, natJson]
    exact_mod_cast h.byteOffset
  simp only [isCheckpointEndpoint, hkeys, h1, h2, h3, h4, hi, safeNat hoffset, safeNat h.observedSize,
    safePositive h.nextLineNumber, hle, decide_true, Bool.and_self]

theorem optionalText {maximum : ℕ} {o : Option JsString} (h : ∀ s, o = some s → byteLength s ≤ maximum) :
    isOptionalBoundedString maximum (o.map .str) = true := by
  rcases o with _ | s
  · rfl
  · simpa [isOptionalBoundedString, isOptional, isBoundedString] using h s rfl

theorem message_ok {m : LastAssistantMessage} (h : isSha256Hex m.sha256 = true ∧ m.utf8Bytes ≤ maxSafeInteger) :
    isLastAssistantMessage (some m.toJson) = true ∧ Written E.float m.toJson := by
  have hord : orderedKeys (["sha256", "utf8_bytes"].map js) = true := by decide
  refine ⟨?_, Written.objectOf (by simp [Written.str, Written.nat h.2]) hord⟩
  have h1 : m.toJson.get (js "sha256") = some (.str m.sha256) := get_objectOf (by simp) hord
  have h2 : m.toJson.get (js "utf8_bytes") = some (natJson m.utf8Bytes) := get_objectOf (by simp) hord
  have hkeys : hasOnlyKeys ["sha256", "utf8_bytes"] m.toJson = true := hasOnlyKeys_objectOf
  simp only [isLastAssistantMessage, hkeys, h1, h2, isPattern, h.1, safeNat h.2, Bool.and_self]

theorem map_written {α : Type} {o : Option α} {f : α → Json} (h : ∀ a, o = some a → Written E.float (f a))
    {v : Json} (hv : o.map f = some v) : Written E.float v := by
  obtain ⟨a, ha, rfl⟩ := Option.map_eq_some_iff.1 hv
  exact h a ha

theorem trigger_ok {t : IngestAttemptTrigger} (h : TriggerOk t) :
    isTrigger (some t.toJson) = true ∧ Written E.float t.toJson := by
  have hord : orderedKeys (["agent_id", "last_assistant_message", "native_turn_id", "stop_hook_active",
      "turn_id"].map js) = true := by decide
  have hwritten : Written E.float t.toJson := by
    refine Written.objectOf ?_ hord
    simp only [List.mem_cons, List.not_mem_nil, or_false, forall_eq_or_imp, forall_eq]
    exact ⟨fun v hv => map_written (fun s _ => Written.str s) hv,
      fun v hv => map_written (fun m hm => (message_ok (h.message m hm)).2) hv,
      fun v hv => map_written (fun s _ => Written.str s) hv,
      fun v hv => map_written (fun b _ => Written.bool b) hv,
      fun v hv => map_written (fun s _ => Written.str s) hv⟩
  refine ⟨?_, hwritten⟩
  have h1 : t.toJson.get (js "native_turn_id") = t.nativeTurnId.map .str := get_objectOf (by simp) hord
  have h2 : t.toJson.get (js "turn_id") = t.turnId.map .str := get_objectOf (by simp) hord
  have h3 : t.toJson.get (js "agent_id") = t.agentId.map .str := get_objectOf (by simp) hord
  have h4 : t.toJson.get (js "stop_hook_active") = t.stopHookActive.map .bool := get_objectOf (by simp) hord
  have h5 : t.toJson.get (js "last_assistant_message") =
      t.lastAssistantMessage.map LastAssistantMessage.toJson := get_objectOf (by simp) hord
  have hkeys : hasOnlyKeys ["agent_id", "last_assistant_message", "native_turn_id", "stop_hook_active",
      "turn_id"] t.toJson = true := hasOnlyKeys_objectOf
  have hflag : isOptional isBoolean (t.stopHookActive.map Json.bool) = true := by
    rcases t.stopHookActive with _ | b <;> rfl
  have hmessage : isOptional isLastAssistantMessage
      (t.lastAssistantMessage.map LastAssistantMessage.toJson) = true := by
    rcases hm : t.lastAssistantMessage with _ | m
    · rfl
    · exact (message_ok (E := E) (h.message m hm)).1
  simp only [isTrigger, hkeys, h1, h2, h3, h4, h5, optionalText h.nativeTurnId, optionalText h.turnId,
    optionalText h.agentId, hflag, hmessage, Bool.and_self]

theorem ids_ok {ids : List JsString} (h : IdsOk ids) :
    isBoundedIdArray (some (textsJson ids)) = true ∧ Written E.float (textsJson ids) := by
  refine ⟨?_, Written.arr fun v hv => ?_⟩
  · simp only [isBoundedIdArray, isBoundedArray, textsJson, Bool.and_eq_true, decide_eq_true_eq,
      List.length_map, List.all_map, List.all_eq_true, Function.comp]
    exact ⟨h.1, fun s hs => by simpa [isBoundedString] using h.2 s hs⟩
  · obtain ⟨s, -, rfl⟩ := List.mem_map.1 hv
    exact Written.str s

/-! ## The JSON of a record -/

theorem attempt_ordered : orderedKeys (["attempt_id", "autopsied_at", "checkpoint_after", "checkpoint_before",
    "event", "finished_at", "migrated_from_schema", "observations", "outcome", "pending_agent_ids",
    "pending_background_ids", "pid", "publish_blocker", "runner_input", "started_at", "trigger", "triggered_at",
    "turns_appended", "withheld_reason"].map js) = true := by decide

theorem AttemptOk.written {a : BarbaroIngestAttempt} (h : AttemptOk E a) : Written E.float a.toJson := by
  refine Written.objectOf ?_ attempt_ordered
  simp only [List.mem_cons, List.not_mem_nil, or_false, forall_eq_or_imp, forall_eq, Option.some.injEq]
  refine ⟨fun v hv => hv ▸ Written.str _, fun v hv => map_written (fun s _ => Written.str s) hv,
    fun v hv => ?_, fun v hv => ?_, fun v hv => hv ▸ Written.str _,
    fun v hv => map_written (fun s _ => Written.str s) hv, fun v hv => ?_,
    fun v hv => hv ▸ (summary_ok h.observations).2, fun v hv => map_written (fun o _ => Written.str _) hv,
    fun v hv => hv ▸ (ids_ok h.pendingAgentIds).2, fun v hv => hv ▸ (ids_ok h.pendingBackgroundIds).2,
    fun v hv => hv ▸ Written.nat h.pid.2, fun v hv => map_written (fun s _ => Written.str s) hv,
    fun v hv => map_written (fun fs hfs => sortKeys_written (h.runnerInput fs hfs).2) hv,
    fun v hv => hv ▸ Written.str _, fun v hv => map_written (fun t ht => (trigger_ok (h.trigger t ht)).2) hv,
    fun v hv => hv ▸ Written.str _, fun v hv => hv ▸ Written.nat h.turnsAppended,
    fun v hv => map_written (fun s _ => Written.str s) hv⟩
  · exact orNull_written (fun w hw => map_written (fun c hc => (endpoint_ok (h.checkpointAfter c hc)).2) hw) hv
  · exact orNull_written (fun w hw => map_written (fun c hc => (endpoint_ok (h.checkpointBefore c hc)).2) hw) hv
  · split at hv
    · cases hv
      exact Written.str _
    · cases hv

/-- What is read of a record in its JSON form. -/
structure Reads (a : BarbaroIngestAttempt) (v : Json) : Prop where
  attemptId : v.get (js "attempt_id") = some (.str a.attemptId)
  event : v.get (js "event") = some (.str a.event)
  trigger : v.get (js "trigger") = a.trigger.map IngestAttemptTrigger.toJson
  triggeredAt : v.get (js "triggered_at") = some (.str a.triggeredAt)
  pid : v.get (js "pid") = some (natJson a.pid)
  startedAt : v.get (js "started_at") = some (.str a.startedAt)
  observations : v.get (js "observations") = some a.observations.toJson
  checkpointBefore : v.get (js "checkpoint_before") =
    orNull (a.checkpointBefore.map IngestCheckpointEndpoint.toJson)
  checkpointAfter : v.get (js "checkpoint_after") =
    orNull (a.checkpointAfter.map IngestCheckpointEndpoint.toJson)
  turnsAppended : v.get (js "turns_appended") = some (natJson a.turnsAppended)
  runnerInput : v.get (js "runner_input") = a.runnerInput.map (fun fs => sortKeys (.obj fs))
  pendingBackgroundIds : v.get (js "pending_background_ids") = some (textsJson a.pendingBackgroundIds)
  pendingAgentIds : v.get (js "pending_agent_ids") = some (textsJson a.pendingAgentIds)
  withheldReason : v.get (js "withheld_reason") = a.withheldReason.map .str
  publishBlocker : v.get (js "publish_blocker") = a.publishBlocker.map .str
  finishedAt : v.get (js "finished_at") = a.finishedAt.map .str
  outcome : v.get (js "outcome") = a.outcome.map (fun o => .str (js o.text))
  migrated : v.get (js "migrated_from_schema") =
    if a.migrated then some (.str legacyIngestAttemptSchema) else none
  autopsiedAt : v.get (js "autopsied_at") = a.autopsiedAt.map .str

theorem toJson_reads (a : BarbaroIngestAttempt) : Reads a a.toJson := by
  constructor <;> exact get_objectOf (by simp) attempt_ordered

theorem hasOnlyKeys_perm {allowed other : List String} {v : Json}
    (h : (allowed.length ≤ other.length && allowed.all (fun k => other.contains k)) = true)
    (hv : hasOnlyKeys allowed v = true) : hasOnlyKeys other v = true := by
  rw [Bool.and_eq_true, decide_eq_true_eq, List.all_eq_true] at h
  cases v <;> simp only [hasOnlyKeys, Bool.false_eq_true] at hv
  simp only [hasOnlyKeys, Bool.and_eq_true, decide_eq_true_eq, List.all_eq_true, List.any_eq_true] at hv ⊢
  refine ⟨le_trans hv.1 h.1, fun f hf => ?_⟩
  obtain ⟨k, hk, hkf⟩ := hv.2 f hf
  exact ⟨k, by simpa using h.2 k hk, hkf⟩

theorem isRunnerItem_sortKeys {v : Json} (h : isRunnerItem v = true) : isRunnerItem (sortKeys v) = true := by
  cases v with
  | null => cases h
  | bool b => exact h
  | num n =>
    rw [sortKeys_of_sorted (show KeysSorted (.num n) from trivial)]
    exact h
  | str s =>
    rw [sortKeys_of_sorted (show KeysSorted (.str s) from trivial)]
    exact h
  | obj fs => cases h
  | arr vs =>
    simp only [isRunnerItem, isBoundedIdArray, isBoundedArray, Bool.and_eq_true, List.all_eq_true] at h
    have hsame : ∀ ws : List Json, (∀ w ∈ ws, isBoundedString maxIdBytes true (some w) = true) →
        sortKeysItems ws = ws := by
      intro ws
      induction ws with
      | nil => intro _; rfl
      | cons w ws ih =>
        intro hws
        have hw := hws w List.mem_cons_self
        have hstr : sortKeys w = w := by
          cases w <;> first | cases hw | exact sortKeys_of_sorted trivial
        rw [sortKeysItems, hstr, ih fun x hx => hws x (List.mem_cons_of_mem _ hx)]
    rw [sortKeys, hsame vs h.2]
    simp only [isRunnerItem, isBoundedIdArray, isBoundedArray, Bool.and_eq_true, List.all_eq_true]
    exact h

theorem isRunnerInput_sortKeys {fs : List (JsString × Json)} (h : isRunnerInput (some (.obj fs)) = true) :
    isRunnerInput (some (sortKeys (.obj fs))) = true := by
  have hperm := sortKeysFields_perm fs
  simp only [isRunnerInput, Bool.and_eq_true, decide_eq_true_eq, List.all_eq_true] at h
  rw [sortKeys]
  simp only [isRunnerInput, Bool.and_eq_true, decide_eq_true_eq, List.all_eq_true]
  refine ⟨?_, fun f hf => ?_⟩
  · rw [hperm.length_eq, List.length_map]
    exact h.1
  · obtain ⟨g, hg, rfl⟩ := List.mem_map.1 (hperm.subset hf)
    exact ⟨(h.2 g hg).1, isRunnerItem_sortKeys (h.2 g hg).2⟩

/-- **The JSON form of a record is a valid entry.** -/
theorem AttemptOk.entry {a : BarbaroIngestAttempt} (h : AttemptOk E a) : Entry E a.toJson := by
  have hw := h.written
  have hr := toJson_reads a
  obtain ⟨fs, hfs⟩ : ∃ fs, a.toJson = .obj fs := ⟨_, rfl⟩
  refine ⟨⟨fs, hfs, ?_, ?_⟩, ?_, fun o ho => ?_⟩
  · rw [hfs] at hw
    exact hw.wellFormed.1
  · rw [hfs] at hw
    exact fun f hf => ⟨(keysSortedFields_iff.1 hw.sorted).1 f hf, wellFormedFields_iff.1 hw.wellFormed.2 f hf⟩
  swap
  · rw [hr.observations] at ho
    cases ho
    have hdropped : a.observations.toJson.get (js "dropped_transitions") =
        some (natJson a.observations.droppedTransitions) := get_objectOf (by simp) summary_ordered
    have hitems : a.observations.toJson.get (js "size_transitions") =
        some (.arr (a.observations.sizeTransitions.map IngestObservationTransition.toJson)) :=
      get_objectOf (by simp) summary_ordered
    have := h.observations.bounds.1
    have := h.observations.count
    simp only [intAt, itemsAt?, hdropped, hitems, natJson, Option.getD_some, List.length_map]
    omega
  have hkeys : hasOnlyKeys attemptKeys a.toJson = true := by
    have hown : hasOnlyKeys ["attempt_id", "autopsied_at", "checkpoint_after", "checkpoint_before", "event",
        "finished_at", "migrated_from_schema", "observations", "outcome", "pending_agent_ids",
        "pending_background_ids", "pid", "publish_blocker", "runner_input", "started_at", "trigger",
        "triggered_at", "turns_appended", "withheld_reason"] a.toJson = true := hasOnlyKeys_objectOf
    exact hasOnlyKeys_perm (by decide) hown
  have htrigger : isTrigger (a.trigger.map IngestAttemptTrigger.toJson) = true := by
    rcases ht : a.trigger with _ | t
    · rfl
    · exact (trigger_ok (E := E) (h.trigger t ht)).1
  have hendpoint : ∀ o : Option IngestCheckpointEndpoint, (∀ c, o = some c → EndpointOk c) →
      isNullOr isCheckpointEndpoint (orNull (o.map IngestCheckpointEndpoint.toJson)) = true := by
    intro o ho
    rcases o with _ | c
    · rfl
    · have hc := (endpoint_ok (E := E) (ho c rfl)).1
      obtain ⟨cs, hcs⟩ : ∃ cs, c.toJson = .obj cs := ⟨_, rfl⟩
      simp only [Option.map_some, orNull]
      rw [hcs] at hc ⊢
      exact hc
  have hinput : isRunnerInput (a.runnerInput.map (fun fs => sortKeys (.obj fs))) = true := by
    rcases hi : a.runnerInput with _ | gs
    · rfl
    · have hvalid := (h.runnerInput gs hi).1
      simp only [Option.map_some]
      exact isRunnerInput_sortKeys hvalid
  have hfinished : ∀ o : Option JsString, (∀ s, o = some s → TimeOk E s) →
      isOptional (isTimestamp E) (o.map .str) = true := by
    intro o ho
    rcases o with _ | s
    · rfl
    · exact ho s rfl
  have houtcome : isOptional isAttemptOutcome (a.outcome.map (fun o => .str (js o.text))) = true := by
    rcases a.outcome with _ | o
    · rfl
    · cases o <;> decide
  have hpair : ((a.finishedAt.map Json.str).isNone ==
      (a.outcome.map (fun o => Json.str (js o.text))).isNone) = true := by
    rw [Option.isNone_map, Option.isNone_map, h.outcome, beq_self_eq_true]
  have hmigrated : isOptional (equalsText legacyIngestAttemptSchema)
      (if a.migrated then some (.str legacyIngestAttemptSchema) else none) = true := by
    cases a.migrated
    · rfl
    · decide
  have htext : ∀ s maximum, s ≠ [] ∧ byteLength s ≤ maximum →
      isBoundedString maximum false (some (.str s)) = true := by
    intro s maximum hs
    simpa [isBoundedString] using hs
  have htimes : isTimestamp E (some (.str a.triggeredAt)) = true := h.triggeredAt
  have htimes' : isTimestamp E (some (.str a.startedAt)) = true := h.startedAt
  simp only [isAttemptV2, hkeys, hr.attemptId, hr.event, hr.trigger, hr.triggeredAt, hr.pid, hr.startedAt,
    hr.observations, hr.checkpointBefore, hr.checkpointAfter, hr.turnsAppended, hr.runnerInput,
    hr.pendingBackgroundIds, hr.pendingAgentIds, hr.withheldReason, hr.publishBlocker, hr.finishedAt,
    hr.outcome, hr.migrated, hr.autopsiedAt, htext _ _ h.attemptId, htext _ _ h.event, htrigger, htimes, htimes',
    safePositive h.pid, (summary_ok h.observations).1, hendpoint _ h.checkpointBefore,
    hendpoint _ h.checkpointAfter, safeNat h.turnsAppended, hinput, (ids_ok (E := E) h.pendingBackgroundIds).1,
    (ids_ok (E := E) h.pendingAgentIds).1, optionalText h.withheldReason, optionalText h.publishBlocker,
    hfinished _ h.finishedAt, hfinished _ h.autopsiedAt, houtcome, hpair, hmigrated, Bool.and_self]

/-! ## The records that hooks build -/

theorem bounded_le (s : JsString) (maximum : ℕ) : byteLength (bounded s maximum) ≤ maximum :=
  truncateUtf8_le s maximum

theorem optionalBounded_le {o : Option JsString} {maximum : ℕ} {s : JsString}
    (h : optionalBounded o maximum = some s) : byteLength s ≤ maximum := by
  rw [optionalBounded.eq_def] at h
  split at h
  · cases h
  · split at h
    · cases h
    · cases h
      exact bounded_le _ _

theorem boundedIds_ok (ids : List JsString) : IdsOk (boundedIds ids) := by
  refine ⟨?_, fun s hs => ?_⟩
  · rw [boundedIds, List.length_map, List.length_take]
    exact Nat.min_le_left _ _
  · obtain ⟨t, -, rfl⟩ := List.mem_map.1 hs
    exact bounded_le _ _

/-- What the host gives to a hook that begins an attempt. -/
structure BeginOk (E : Host) (options : BeginIngestAttemptOptions) (attemptId startedAt : JsString) (pid : ℕ) :
    Prop where
  event : options.event ≠ []
  attemptId : attemptId ≠ [] ∧ byteLength attemptId ≤ maxIdBytes
  triggeredAt : ∀ s, options.triggeredAt = some s → TimeOk E s
  startedAt : TimeOk E startedAt
  pid : 1 ≤ pid ∧ pid ≤ maxSafeInteger
  snapshot : ∀ size identity, options.snapshot = some (size, identity) →
    size ≤ maxSafeInteger ∧ IdentityOk identity
  message : ∀ s, options.lastAssistantMessage = some s → byteLength s ≤ maxSafeInteger

theorem createTrigger_ok {options : BeginIngestAttemptOptions}
    (h : ∀ s, options.lastAssistantMessage = some s → byteLength s ≤ maxSafeInteger)
    {t : IngestAttemptTrigger} (ht : createTrigger E.toHasher options = some t) : TriggerOk t := by
  have htrigger : ∃ nativeTurnId turnId agentId stopHookActive m,
      t = ⟨optionalBounded nativeTurnId maxIdBytes, optionalBounded turnId maxIdBytes,
        optionalBounded agentId maxIdBytes, stopHookActive, m⟩ ∧
      ∀ m', m = some m' → ∃ message, options.lastAssistantMessage = some message ∧
        m' = ⟨E.sha256 (utf8 message), byteLength message⟩ := by
    simp only [createTrigger] at ht
    refine ⟨options.nativeTurnId, options.turnId, options.agentId, options.stopHookActive,
      t.lastAssistantMessage, ?_, fun m hm => ?_⟩
    · have := Option.ite_none_left_eq_some.1 ht
      cases this.2
      rfl
    · have hsome := (Option.ite_none_left_eq_some.1 ht).2
      cases hsome
      rcases hl : options.lastAssistantMessage with _ | message
      · simp [hl] at hm
      · simp only [hl] at hm
        exact ⟨message, rfl, (Option.some.inj (Option.ite_none_left_eq_some.1 hm).2).symm⟩
  obtain ⟨nativeTurnId, turnId, agentId, stopHookActive, m, rfl, hm⟩ := htrigger
  refine ⟨fun s hs => optionalBounded_le hs, fun s hs => optionalBounded_le hs,
    fun s hs => optionalBounded_le hs, fun m' hm' => ?_⟩
  obtain ⟨message, hmessage, rfl⟩ := hm m' hm'
  exact ⟨E.hex _, h message hmessage⟩

/-! ### Observations -/

theorem addTransition_ok {ts : List IngestObservationTransition} {s : IngestTranscriptSnapshot} {n : ℕ}
    (hts : ∀ t ∈ ts, TransitionOk E t) (hcount : ∀ t ∈ ts, t.repeatCount ≤ n) (hn : n + 1 ≤ maxSafeInteger)
    (hs : SnapshotOk E s) : (∀ t ∈ addTransition ts s, TransitionOk E t ∧ t.repeatCount ≤ n + 1) ∧
      addTransition ts s ≠ [] ∧ (addTransition ts s).length ≤ ts.length + 1 := by
  have hnew : TransitionOk E { s with firstObservedAt := s.observedAt, repeatCount := 1 } :=
    ⟨hs, hs.observedAt, Nat.le_refl 1, show 1 ≤ maxSafeInteger by decide⟩
  rw [addTransition]
  rcases hl : ts.getLast? with _ | previous
  · refine ⟨fun t ht => ?_, by simp, by simp⟩
    rw [List.mem_singleton] at ht
    rw [ht]
    exact ⟨hnew, Nat.le_add_left 1 n⟩
  · have hmem : previous ∈ ts := List.mem_of_getLast? hl
    simp only
    split
    · refine ⟨fun t ht => ?_, by simp, ?_⟩
      · rcases List.mem_append.1 ht with ht | ht
        · have ht' := (List.dropLast_sublist ts).subset ht
          exact ⟨hts t ht', le_trans (hcount t ht') (Nat.le_succ n)⟩
        · rw [List.mem_singleton] at ht
          rw [ht]
          obtain ⟨hsnap, hfirst, hrepeat⟩ := hts previous hmem
          have := hcount previous hmem
          refine ⟨⟨⟨hs.observedAt, hsnap.observedSize, hsnap.fileIdentity⟩, hfirst, ?_⟩, ?_⟩
          · simp only
            omega
          · simp only
            omega
      · rw [List.length_append, List.length_dropLast, List.length_singleton]
        omega
    · refine ⟨fun t ht => ?_, by simp, by simp⟩
      rcases List.mem_append.1 ht with ht | ht
      · exact ⟨hts t ht, le_trans (hcount t ht) (Nat.le_succ n)⟩
      · rw [List.mem_singleton] at ht
        rw [ht]
        exact ⟨hnew, Nat.le_add_left 1 n⟩

theorem addObservation_ok {o : IngestObservationSummary} {s : IngestTranscriptSnapshot} (h : SummaryOk E o)
    (hs : SnapshotOk E s) (hcount : o.count + 1 ≤ maxSafeInteger) : SummaryOk E (addObservation o s) := by
  obtain ⟨hts, hne, hlen⟩ := addTransition_ok h.transitions h.bounds.2 hcount hs
  have hbounds := h.bounds.1
  have hone : 1 ≤ (addTransition o.sizeTransitions s).length := List.length_pos_of_ne_nil hne
  simp only [addObservation]
  refine ⟨hcount, fun t ht => (hts t (List.mem_of_mem_drop ht)).1, ?_, ⟨?_, fun t ht => ?_⟩, ?_, ?_⟩
  · rw [List.length_drop]
    omega
  · rw [List.length_drop]
    simp only
    omega
  · exact (hts t (List.mem_of_mem_drop ht)).2
  · intro hzero
    simp only at hzero
    omega
  · intro _
    refine ⟨⟨_, rfl, ?_⟩, ⟨s, rfl, hs⟩, ?_⟩
    · rcases hf : o.first with _ | f
      · exact hs
      · rcases Nat.eq_zero_or_pos o.count with hzero | hpos
        · rw [(h.empty hzero).1] at hf
          cases hf
        · obtain ⟨⟨g, hg, hgok⟩, -⟩ := h.ends (by omega)
          rw [hf] at hg
          cases hg
          exact hgok
    · intro hnil
      have hlength := congrArg List.length hnil
      rw [List.length_drop, List.length_nil] at hlength
      unfold maxIngestObservationTransitions at hlength
      omega

theorem emptySummary_ok : SummaryOk E {} :=
  ⟨Nat.zero_le _, by simp, Nat.zero_le _, ⟨Nat.le_refl _, by simp⟩, fun _ => ⟨rfl, rfl, rfl⟩,
    fun h => absurd rfl h⟩

theorem beginAttempt_ok {options : BeginIngestAttemptOptions} {attemptId startedAt : JsString} {pid : ℕ}
    (h : BeginOk E options attemptId startedAt pid) :
    AttemptOk E (beginAttempt E.toHasher options attemptId startedAt pid) where
  attemptId := h.attemptId
  event := ⟨truncateUtf8_nonempty h.event (by decide), bounded_le _ _⟩
  trigger t ht := createTrigger_ok h.message ht
  triggeredAt := by
    rcases ht : options.triggeredAt with _ | s
    · simpa [beginAttempt, ht] using h.startedAt
    · simpa [beginAttempt, ht] using h.triggeredAt s ht
  pid := h.pid
  startedAt := h.startedAt
  observations := by
    rcases hs : options.snapshot with _ | ⟨size, identity⟩
    · simpa [beginAttempt, hs] using emptySummary_ok
    · obtain ⟨hsize, hidentity⟩ := h.snapshot size identity hs
      simpa [beginAttempt, hs] using
        addObservation_ok emptySummary_ok ⟨h.startedAt, hsize, hidentity⟩ (by decide)
  checkpointBefore _ hc := by cases hc
  checkpointAfter _ hc := by cases hc
  turnsAppended := Nat.zero_le _
  runnerInput _ hi := by cases hi
  pendingBackgroundIds := ⟨Nat.zero_le _, fun _ hs => by cases hs⟩
  pendingAgentIds := ⟨Nat.zero_le _, fun _ hs => by cases hs⟩
  withheldReason _ hs := by cases hs
  publishBlocker _ hs := by cases hs
  finishedAt _ hs := by cases hs
  outcome := rfl
  autopsiedAt _ hs := by cases hs

/-! ### The input of the runner -/

/-- A member as it is kept: a short key, and a value the reader accepts. -/
def ItemOk (E : Host) (f : JsString × Json) : Prop :=
  isBoundedString 128 false (some (.str f.1)) = true ∧ isRunnerItem f.2 = true ∧ f.2.WellFormed E.float

theorem boundedItem_ok {value : IngestRunnerInputValue} {v : Json}
    (hn : ∀ n, value = .number (some n) → n.Canonical E.float) (h : boundedItem value = some v) :
    isRunnerItem v = true ∧ v.WellFormed E.float := by
  cases value with
  | text s =>
    cases h
    exact ⟨by simpa [isRunnerItem, isBoundedString] using bounded_le s _, trivial⟩
  | number n =>
    rcases n with _ | n
    · cases h
    · cases h
      have hcanonical := hn n rfl
      have hfinite := hasInfinite_wellFormed (v := .num n) hcanonical
      refine ⟨?_, hcanonical⟩
      simpa [isRunnerItem, hasInfinite] using hfinite
  | flag b =>
    cases h
    exact ⟨rfl, trivial⟩
  | texts values =>
    cases h
    obtain ⟨h1, h2⟩ := ids_ok (E := E) (boundedIds_ok values)
    exact ⟨h1, h2.wellFormed⟩

theorem setField_length (k : JsString) (v : Json) (fs : List (JsString × Json)) :
    (Json.setField k v fs).length ≤ fs.length + 1 := by
  induction fs with
  | nil => simp [Json.setField]
  | cons f fs ih =>
    rw [Json.setField]
    split
    · simp
    · simp only [List.length_cons]
      omega

theorem boundedRunnerInput_ok {input : List (JsString × IngestRunnerInputValue)}
    (hkeys : ∀ f ∈ input, f.1 ≠ [])
    (hnumbers : ∀ f ∈ input, ∀ n, f.2 = .number (some n) → n.Canonical E.float) :
    isRunnerInput (some (.obj (boundedRunnerInput input))) = true ∧
      (Json.obj (boundedRunnerInput input)).WellFormed E.float := by
  -- an item that is dropped changes nothing, and one that is kept is set
  have hfold : ∀ put : List (JsString × Json) → JsString × IngestRunnerInputValue → List (JsString × Json),
      (∀ done f, boundedItem f.2 = none → put done f = done) →
      (∀ done f v, boundedItem f.2 = some v → put done f = Json.setField (bounded f.1 128) v done) →
      ∀ (fs : List (JsString × IngestRunnerInputValue)) (done : List (JsString × Json)),
        (∀ f ∈ fs, f ∈ input) → (done.map (·.1)).Nodup → (∀ f ∈ done, ItemOk E f) →
        ((fs.foldl put done).map (·.1)).Nodup ∧ (∀ f ∈ fs.foldl put done, ItemOk E f) ∧
          (fs.foldl put done).length ≤ done.length + fs.length := by
    intro put hdropped hput fs
    induction fs with
    | nil => intro done _ hnd hok; exact ⟨hnd, hok, Nat.le_refl _⟩
    | cons f fs ih =>
      intro done hmem hnd hok
      have hf := hmem f List.mem_cons_self
      have hrest := fun g hg => hmem g (List.mem_cons_of_mem _ hg)
      rw [List.foldl_cons, List.length_cons]
      rcases hv : boundedItem f.2 with _ | v
      · rw [hdropped done f hv]
        obtain ⟨h1, h2, h3⟩ := ih done hrest hnd hok
        exact ⟨h1, h2, le_trans h3 (by omega)⟩
      · obtain ⟨hitem, hwell⟩ := boundedItem_ok (hnumbers f hf) hv
        have hkey : isBoundedString 128 false (some (.str (bounded f.1 128))) = true := by
          have hne := truncateUtf8_nonempty (hkeys f hf) (show 4 ≤ 128 by decide)
          simpa [isBoundedString] using ⟨hne, bounded_le f.1 128⟩
        have hlen := setField_length (bounded f.1 128) v done
        rw [hput done f v hv]
        obtain ⟨h1, h2, h3⟩ := ih (Json.setField (bounded f.1 128) v done) hrest (Json.setField_nodup hnd)
          fun g hg => by
            rcases mem_setField hg with rfl | hg
            · exact ⟨hkey, hitem, hwell⟩
            · exact hok g hg
        exact ⟨h1, h2, le_trans h3 (by omega)⟩
  obtain ⟨hnd, hok, hlen⟩ : ((boundedRunnerInput input).map (·.1)).Nodup ∧
      (∀ f ∈ boundedRunnerInput input, ItemOk E f) ∧
      (boundedRunnerInput input).length ≤ ([] : List (JsString × Json)).length +
        ((input.insertionSort (fun a b => compareUtf16CodeUnits a.1 b.1 ≠ .gt)).take maxRunnerInputFields).length :=
    hfold _ (fun done f h => by rw [h]) (fun done f v h => by rw [h]) _ []
      (fun f hf => (List.perm_insertionSort _ _).subset (List.mem_of_mem_take hf)) List.nodup_nil (by simp)
  have hfew : (boundedRunnerInput input).length ≤ maxRunnerInputFields := by
    refine le_trans hlen ?_
    rw [List.length_take, List.length_nil]
    omega
  refine ⟨?_, hnd, wellFormedFields_iff.2 fun f hf => (hok f hf).2.2⟩
  simp only [isRunnerInput, Bool.and_eq_true, decide_eq_true_eq, List.all_eq_true]
  exact ⟨hfew, fun f hf => ⟨(hok f hf).1, (hok f hf).2.1⟩⟩

/-! ### A step of the life of a record -/

/-- What the runner gives to a hook that observes. -/
structure ObservationOk (E : Host) (observation : IngestAttemptObservation) (observedAt : JsString) : Prop where
  observedAt : TimeOk E observedAt
  fileIdentity : IdentityOk observation.fileIdentity
  checkpointBefore : ∀ c, observation.checkpointBefore = some c → EndpointOk (checkpointEndpoint c)
  checkpointAfter : ∀ c, observation.checkpointAfter = some c → EndpointOk (checkpointEndpoint c)
  keys : ∀ f ∈ observation.runnerInput, f.1 ≠ []
  numbers : ∀ f ∈ observation.runnerInput, ∀ n, f.2 = .number (some n) → n.Canonical E.float

/-- No counter of the attempt is exhausted. -/
def Countable (attempt : BarbaroIngestAttempt) (observation : IngestAttemptObservation) : Prop :=
  attempt.observations.count < maxSafeInteger ∧ attempt.turnsAppended + observation.turnsAppended ≤ maxSafeInteger

theorem safeNonNegativeInteger_ok {value : ℤ} {name : String} {n : ℕ}
    (h : safeNonNegativeInteger value name = .ok n) : value = n ∧ n ≤ maxSafeInteger := by
  rw [safeNonNegativeInteger, Outcome.guard_else] at h
  obtain ⟨⟨h0, h1⟩, h⟩ := h
  cases h
  omega

theorem observeAttempt_ok {a a' : BarbaroIngestAttempt} {observation : IngestAttemptObservation}
    {observedAt : JsString} (h : AttemptOk E a) (ho : ObservationOk E observation observedAt)
    (hcount : Countable a observation) (hobserve : observeAttempt a observation observedAt = .ok a') : AttemptOk E a' := by
  simp only [observeAttempt, Outcome.bind_ok, Outcome.pure_ok] at hobserve
  obtain ⟨size, hsize, turns, hturns, rfl⟩ := hobserve
  obtain ⟨-, hsize⟩ := safeNonNegativeInteger_ok hsize
  obtain ⟨hturns, -⟩ := safeNonNegativeInteger_ok hturns
  have hsum := hcount.2
  exact {
    attemptId := h.attemptId
    event := h.event
    trigger := h.trigger
    triggeredAt := h.triggeredAt
    pid := h.pid
    startedAt := h.startedAt
    observations := addObservation_ok h.observations ⟨ho.observedAt, hsize, ho.fileIdentity⟩ hcount.1
    checkpointBefore := fun c hc => by
      simp only at hc
      split at hc
      · obtain ⟨d, hd, rfl⟩ := Option.map_eq_some_iff.1 hc
        exact ho.checkpointBefore d hd
      · exact h.checkpointBefore c hc
    checkpointAfter := fun c hc => by
      obtain ⟨d, hd, rfl⟩ := Option.map_eq_some_iff.1 hc
      exact ho.checkpointAfter d hd
    turnsAppended := by
      simp only
      omega
    runnerInput := fun fs hfs => by
      cases hfs
      exact boundedRunnerInput_ok ho.keys ho.numbers
    pendingBackgroundIds := boundedIds_ok _
    pendingAgentIds := boundedIds_ok _
    withheldReason := fun s hs => by
      obtain ⟨r, -, rfl⟩ := Option.map_eq_some_iff.1 hs
      exact bounded_le _ _
    publishBlocker := fun s hs => by
      obtain ⟨r, -, rfl⟩ := Option.map_eq_some_iff.1 hs
      exact bounded_le _ _
    finishedAt := h.finishedAt
    outcome := h.outcome
    autopsiedAt := h.autopsiedAt }

theorem finishAttempt_ok {a : BarbaroIngestAttempt} (h : AttemptOk E a) (outcome : IngestAttemptOutcome)
    {finishedAt : JsString} (ht : TimeOk E finishedAt) : AttemptOk E (finishAttempt a outcome finishedAt) :=
  { h with
    finishedAt := fun s hs => by
      cases hs
      exact ht
    outcome := rfl }

/-! ### Migration -/

theorem textAt_of_bounded {k : String} {v : Json} {maximum : ℕ}
    (h : isBoundedString maximum false (v.get (js k)) = true) :
    v.get (js k) = some (.str (textAt k v)) ∧ textAt k v ≠ [] := by
  unfold isBoundedString at h
  split at h
  · next s hs =>
    have htext : textAt k v = s := by rw [textAt, hs]
    rw [htext]
    exact ⟨hs, by simpa using (Bool.and_eq_true_iff.1 h).1⟩
  · cases h

theorem textAt?_of_time {k : String} {v : Json} (h : isOptional (isTimestamp E) (v.get (js k)) = true) :
    v.get (js k) = (textAt? k v).map .str ∧ ∀ s, textAt? k v = some s → TimeOk E s := by
  rcases hv : v.get (js k) with _ | w
  · simp [textAt?, hv]
  · rw [hv] at h
    cases w with
    | str s =>
      simp only [textAt?, hv, Option.map_some, Option.some.injEq, true_and]
      rintro t rfl
      exact h
    | _ => cases h

/-- **A legacy file is migrated to a valid record.** -/
theorem migrateLegacyAttempt_ok {key : SessionKey} {v : Json} (h : isLegacyAttempt E key v = true) :
    AttemptOk E (migrateLegacyAttempt v) := by
  simp only [isLegacyAttempt, Bool.and_eq_true] at h
  obtain ⟨⟨⟨⟨⟨⟨⟨⟨⟨⟨-, -⟩, -⟩, -⟩, hevent⟩, hid⟩, hpid⟩, hstarted⟩, hfinished⟩, houtcome⟩, hpair⟩ := h
  obtain ⟨-, hevent⟩ := textAt_of_bounded hevent
  obtain ⟨-, hid⟩ := textAt_of_bounded hid
  have hstart : TimeOk E (textAt "started_at" v) := by
    have hbounded := hstarted
    unfold isTimestamp at hbounded
    rw [Bool.and_eq_true] at hbounded
    obtain ⟨hget, -⟩ := textAt_of_bounded hbounded.1
    rw [hget] at hstarted
    exact hstarted
  obtain ⟨hget, hfinish⟩ := textAt?_of_time hfinished
  have hout : (v.get (js "outcome")).isNone = (textAt? "outcome" v).isNone := by
    rcases ho : v.get (js "outcome") with _ | w
    · simp [textAt?, ho]
    · rw [ho] at houtcome
      cases w with
      | str s => simp [textAt?, ho]
      | _ => cases houtcome
  have hpositive : 1 ≤ intAt "pid" v ∧ intAt "pid" v ≤ maxSafeInteger := by
    rcases hp : v.get (js "pid") with _ | w
    · rw [hp] at hpid
      cases hpid
    · rw [hp] at hpid
      cases w with
      | num n =>
        cases n with
        | int z => simpa [isSafePositiveInteger, isSafeInteger, intAt, hp] using hpid
        | _ => cases hpid
      | _ => cases hpid
  have hroom : 4 ≤ maxIdBytes ∧ 4 ≤ maxEventBytes := by decide
  exact {
    attemptId := ⟨truncateUtf8_nonempty hid hroom.1, bounded_le _ _⟩
    event := ⟨truncateUtf8_nonempty hevent hroom.2, bounded_le _ _⟩
    trigger := fun t ht => by cases ht
    triggeredAt := hstart
    pid := by
      simp only [migrateLegacyAttempt]
      omega
    startedAt := hstart
    observations := emptySummary_ok
    checkpointBefore := fun c hc => by cases hc
    checkpointAfter := fun c hc => by cases hc
    turnsAppended := Nat.zero_le _
    runnerInput := fun fs hfs => by cases hfs
    pendingBackgroundIds := ⟨Nat.zero_le _, fun _ hs => by cases hs⟩
    pendingAgentIds := ⟨Nat.zero_le _, fun _ hs => by cases hs⟩
    withheldReason := fun s hs => by cases hs
    publishBlocker := fun s hs => by cases hs
    finishedAt := hfinish
    outcome := by
      simp only [migrateLegacyAttempt, Option.isNone_map]
      rw [← hout, ← Option.isNone_map (f := Json.str), ← hget]
      exact beq_iff_eq.1 hpair
    autopsiedAt := fun s hs => by cases hs }

end Barbaro.Ingest
