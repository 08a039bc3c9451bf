import Barbaro.Providers.CodexNormalizer

/-!
# What a record makes of a turn

Every record of a turn that does not end it leaves the turn the one it is, and in order: it has a call
once, a subagent once, and the evidence of its subagents.

* `TurnBuilder.Ok`: a turn in order.
* `TurnBuilder.Grows`: what a record may make of a turn, with one lemma for each kind of record.
* `eventBuilder_grows`, `responseBuilder_grows`: all records of a turn.
-/

namespace Barbaro.Codex

open Active (optionalField)
open KeyedMap

variable (E : Host)

/-! ## Turns in order -/

/-- A subagent has one evidence, with its record and its time. -/
structure CodexSubagent.Ok (s : CodexSubagent) : Prop where
  evidence : ∃ id, s.evidenceIds = [id] ∧ id ≠ []
  source : ∃ source, s.source = some source
  occurredAt : ∃ time, s.occurredAt = some time ∧ time ≠ []

structure TurnBuilder.Ok (b : TurnBuilder) : Prop where
  calls : (b.pendingCalls.map PendingCall.callId).Nodup
  subagents : (b.subagents.map CodexSubagent.agentId).Nodup
  reported : ∀ s ∈ b.subagents, s.Ok
  evidence : b.emitted = false → b.evidenceIds = b.subagents.flatMap CodexSubagent.evidenceIds

/-- The turn is still the same. -/
structure TurnBuilder.Same (b b' : TurnBuilder) : Prop where
  nativeTurnId : b'.nativeTurnId = b.nativeTurnId
  barbaroTurnId : b'.barbaroTurnId = b.barbaroTurnId
  sequence : b'.sequence = b.sequence
  agentId : b'.agentId = b.agentId

structure TurnBuilder.Grows (b b' : TurnBuilder) : Prop extends b.Same b' where
  emitted : b'.emitted = b.emitted
  ok : b.Ok → b'.Ok

theorem TurnBuilder.Same.refl (b : TurnBuilder) : b.Same b := ⟨rfl, rfl, rfl, rfl⟩

theorem TurnBuilder.Same.trans {a b c : TurnBuilder} (h : a.Same b) (h' : b.Same c) : a.Same c :=
  ⟨h'.nativeTurnId.trans h.nativeTurnId, h'.barbaroTurnId.trans h.barbaroTurnId, h'.sequence.trans h.sequence,
    h'.agentId.trans h.agentId⟩

theorem TurnBuilder.Grows.refl (b : TurnBuilder) : b.Grows b := ⟨.refl b, rfl, id⟩

theorem TurnBuilder.Grows.trans {a b c : TurnBuilder} (h : a.Grows b) (h' : b.Grows c) : a.Grows c :=
  ⟨h.toSame.trans h'.toSame, h'.emitted.trans h.emitted, fun ha => h'.ok (h.ok ha)⟩

/-- A turn of which only the open calls and what is told of them have changed. -/
theorem grows_of_calls {b b' : TurnBuilder} (hsame : b.Same b') (hemitted : b'.emitted = b.emitted)
    (hsubagents : b'.subagents = b.subagents) (hevidence : b'.evidenceIds = b.evidenceIds)
    (hcalls : (b.pendingCalls.map PendingCall.callId).Nodup → (b'.pendingCalls.map PendingCall.callId).Nodup) :
    b.Grows b' := by
  refine ⟨hsame, hemitted, fun h => ⟨hcalls h.calls, ?_, ?_, ?_⟩⟩
  · rw [hsubagents]
    exact h.subagents
  · rw [hsubagents]
    exact h.reported
  · rw [hsubagents, hevidence, hemitted]
    exact h.evidence

/-! ## Messages and calls -/

theorem considerResponse_grows (message : JsString) (phase nativeId : Option JsString) (b : TurnBuilder) :
    b.Grows (considerResponse message phase nativeId b) := by
  unfold considerResponse
  dsimp only
  split
  · exact .refl b
  · split
    · exact .refl b
    · exact grows_of_calls ⟨rfl, rfl, rfl, rfl⟩ rfl rfl rfl id

theorem rememberCall_grows (rootType : CallType) (payload : Json) (source : CodexSourceLocation) (b : TurnBuilder) :
    b.Grows (rememberCall rootType payload source b) := by
  unfold rememberCall
  split
  · exact grows_of_calls ⟨rfl, rfl, rfl, rfl⟩ rfl rfl rfl nodup_setBy
  · exact .refl b

theorem completeCall_grows (outputType : CallType) (payload : Json) (source : CodexSourceLocation) (b : TurnBuilder) :
    b.Grows (completeCall E outputType payload source b) := by
  unfold completeCall
  split
  · exact .refl b
  · split
    · exact .refl b
    · exact grows_of_calls ⟨rfl, rfl, rfl, rfl⟩ rfl rfl rfl fun h => h.sublist (List.filter_sublist.map _)

theorem callIds_markExecProjected (calls : List PendingCall) :
    (markExecProjected calls).map PendingCall.callId = calls.map PendingCall.callId := by
  induction calls with
  | nil => rfl
  | cons call calls ih =>
    unfold markExecProjected
    split
    · rw [List.map_cons, ih, List.map_cons]
    · split
      · rfl
      · rfl

theorem TurnBuilder.markExec_grows (b : TurnBuilder) : b.Grows b.markExec := by
  refine grows_of_calls ⟨rfl, rfl, rfl, rfl⟩ rfl rfl rfl fun h => ?_
  unfold TurnBuilder.markExec
  rw [callIds_markExecProjected]
  exact h

/-! ## Items, tools and subagents -/

theorem acceptCommandExecutionItem_grows (eventPayload item : Json) (source : CodexSourceLocation) (b : TurnBuilder) :
    b.Grows (acceptCommandExecutionItem E eventPayload item source b) := by
  apply b.markExec_grows.trans
  unfold acceptCommandExecutionItem
  dsimp only
  split
  · exact .refl _
  · split
    · exact .refl _
    · exact grows_of_calls ⟨rfl, rfl, rfl, rfl⟩ rfl rfl rfl id

theorem acceptPatchApply_grows (root : Option (List JsString)) (payload : Json) (source : CodexSourceLocation)
    (b : TurnBuilder) : b.Grows (acceptPatchApply E root payload source b) :=
  grows_of_calls ⟨rfl, rfl, rfl, rfl⟩ rfl rfl rfl id

theorem acceptFileChangeItem_grows (root : Option (List JsString)) (eventPayload item : Json)
    (source : CodexSourceLocation) (b : TurnBuilder) :
    b.Grows (acceptFileChangeItem E root eventPayload item source b) :=
  b.markExec_grows.trans (acceptPatchApply_grows E root _ source b.markExec)

theorem acceptNamedTool_grows (toolName : JsString) (payload : Json) (source : CodexSourceLocation)
    (outcome : ActionOutcome) (summary : Option Json) (b : TurnBuilder) :
    b.Grows (acceptNamedTool E toolName payload source outcome summary b) :=
  grows_of_calls ⟨rfl, rfl, rfl, rfl⟩ rfl rfl rfl id

theorem evidenceIdOf_ne (turnId identity : JsString) : evidenceIdOf E turnId identity ≠ [] := by
  change (Except.toOption (.ok (createTypedId E.toHasher .evidence _))).getD [] ≠ []
  change createTypedId E.toHasher .evidence _ ≠ []
  unfold createTypedId
  exact List.append_ne_nil_of_right_ne_nil _ (List.cons_ne_nil _ _)

theorem CodexSubagent.Ok.active {s : CodexSubagent} (h : s.Ok) {kind occurredAt : JsString} (htime : occurredAt ≠ []) :
    (s.active kind occurredAt).Ok :=
  ⟨h.evidence, h.source, occurredAt, rfl, htime⟩

theorem acceptSubagentActivity_grows (payload : Json) (source : CodexSourceLocation) {occurredAt : JsString}
    (htime : occurredAt ≠ []) (b : TurnBuilder) : b.Grows (acceptSubagentActivity E payload source occurredAt b) := by
  unfold acceptSubagentActivity
  dsimp only
  split
  · exact .refl b
  · next agentId _ =>
    split
    · next s hget =>
      -- its evidence stays the one that its first activity gave it
      obtain ⟨hs, hid⟩ := getBy_some hget
      refine ⟨⟨rfl, rfl, rfl, rfl⟩, rfl, fun h => ⟨h.calls, ?_, ?_, fun hlive => ?_⟩⟩
      · rw [keys_putBy]
        exact h.subagents
      · intro s' hs'
        rcases mem_putBy hs' with rfl | hs'
        · exact (h.reported s hs).active htime
        · exact h.reported s' hs'
      · rw [List.flatMap_def, map_putBy, ← List.flatMap_def]
        · exact h.evidence hlive
        · intro v hv hkey
          rw [getBy_only h.subagents hv (hkey.trans hid) hget]
          rfl
    · next hnew =>
      rw [getBy_none] at hnew
      refine ⟨⟨rfl, rfl, rfl, rfl⟩, rfl, fun h => ⟨h.calls, ?_, ?_, fun hlive => ?_⟩⟩
      · rw [List.map_append, List.nodup_append]
        refine ⟨h.subagents, List.nodup_singleton _, fun id hid id' hid' => ?_⟩
        rw [List.mem_singleton.1 hid']
        intro heq
        rw [heq] at hid
        exact hnew hid
      · intro s hs
        rcases List.mem_append.1 hs with hs | hs
        · exact h.reported s hs
        · rw [List.mem_singleton.1 hs]
          exact ⟨⟨_, rfl, evidenceIdOf_ne E _ _⟩, ⟨_, rfl⟩, _, rfl, htime⟩
      · rw [List.flatMap_append, ← h.evidence hlive]
        rfl

/-! ## All records of a turn -/

theorem eventBuilder_grows (root : Option (List JsString)) (eventType : JsString) (payload : Json) {timestamp : JsString}
    (htime : timestamp ≠ []) (source : CodexSourceLocation) (b : TurnBuilder) :
    b.Grows (eventBuilder E root eventType payload timestamp source b) := by
  unfold eventBuilder
  split
  · split
    · split
      · exact grows_of_calls ⟨rfl, rfl, rfl, rfl⟩ rfl rfl rfl id
      · exact .refl b
    · exact .refl b
  split
  · split
    · exact considerResponse_grows _ _ _ b
    · exact .refl b
  split
  · split
    · exact .refl b
    · split
      · exact acceptCommandExecutionItem_grows E payload _ source b
      · split
        · exact acceptFileChangeItem_grows E root payload _ source b
        · exact .refl b
  split
  · exact acceptPatchApply_grows E root payload source b
  split
  · exact acceptNamedTool_grows E _ payload source _ _ b
  split
  · exact acceptNamedTool_grows E _ payload source _ _ b
  split
  · exact acceptNamedTool_grows E _ payload source _ _ b
  split
  · exact acceptSubagentActivity_grows E payload source htime b
  split
  · exact grows_of_calls ⟨rfl, rfl, rfl, rfl⟩ rfl rfl rfl id
  · exact .refl b

theorem completedBuilder_grows (payload : Json) (b : TurnBuilder) : b.Grows (completedBuilder payload b) := by
  unfold completedBuilder
  split
  · split
    · exact .refl b
    · exact grows_of_calls ⟨rfl, rfl, rfl, rfl⟩ rfl rfl rfl id
  · exact .refl b

theorem responseBuilder_grows (responseType : JsString) (payload : Json) (source : CodexSourceLocation)
    (b : TurnBuilder) : b.Grows (responseBuilder E responseType payload source b) := by
  unfold responseBuilder
  split
  · split
    · exact .refl b
    · dsimp only
      split
      · split
        · exact grows_of_calls ⟨rfl, rfl, rfl, rfl⟩ rfl rfl rfl id
        · exact .refl b
      · split
        · exact considerResponse_grows _ _ _ b
        · exact .refl b
  split
  · exact rememberCall_grows _ payload source b
  split
  · exact rememberCall_grows _ payload source b
  split
  · exact completeCall_grows E _ payload source b
  split
  · exact completeCall_grows E _ payload source b
  · exact .refl b

/-- All calls of the turn are done, and no more of it is published. -/
theorem settleCalls_same (b : TurnBuilder) : b.Same (settleCalls E b) ∧ (settleCalls E b).subagents = b.subagents ∧
    (settleCalls E b).evidenceIds = b.evidenceIds := by
  have hfold : ∀ (calls : List PendingCall) (b : TurnBuilder),
      let c := calls.foldl (fun b call => materializeCall E call none b) b
      b.Same c ∧ c.subagents = b.subagents ∧ c.evidenceIds = b.evidenceIds := by
    intro calls
    induction calls with
    | nil => exact fun b => ⟨.refl b, rfl, rfl⟩
    | cons call calls ih =>
      intro b
      obtain ⟨hsame, hsub, hev⟩ := ih (materializeCall E call none b)
      have hcall : b.Same (materializeCall E call none b) := ⟨rfl, rfl, rfl, rfl⟩
      exact ⟨hcall.trans hsame, hsub, hev⟩
  obtain ⟨hsame, hsub, hev⟩ := hfold b.pendingCalls b
  exact ⟨⟨hsame.nativeTurnId, hsame.barbaroTurnId, hsame.sequence, hsame.agentId⟩, hsub, hev⟩

theorem settleCalls_ok {b : TurnBuilder} (h : b.Ok) (sessionId : JsString) :
    (settleCalls E (flushDeferredEvidence E sessionId b).2).Ok := by
  obtain ⟨-, hsub, -⟩ := settleCalls_same E (flushDeferredEvidence E sessionId b).2
  refine ⟨List.nodup_nil, ?_, ?_, fun hlive => ?_⟩
  · rw [hsub]
    exact h.subagents
  · rw [hsub]
    exact h.reported
  · cases hlive

end Barbaro.Codex
