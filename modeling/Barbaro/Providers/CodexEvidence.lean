import Barbaro.Providers.CodexState

/-!
# What a turn is published with

A turn is published once, with its number, and with the evidence it refers to: every reference is to an
evidence of its batch, and no evidence goes without its turn.

* `Resolved`: a batch whose references are its evidence.
* `refs_resolved`: every batch of a run is.
* `published_once`: no number is published twice.
-/

namespace Barbaro.Codex

open KeyedMap

variable {E : Host} {process : CodexProcess}

/-! ## Batches -/

/-- The references of the turn of a batch are its evidence, and the evidence is of the turn. -/
structure Resolved (batch : CodexNormalizationBatch) : Prop where
  refs : ∀ turn ∈ batch.turns, ∃ refs, turn.get (js "evidence_refs") = some (textsJson refs) ∧
    ∀ id, id ∈ refs ↔ ∃ e ∈ batch.evidence, e.get (js "evidence_id") = some (.str id)
  evidence : ∀ e ∈ batch.evidence, ∃ turn ∈ batch.turns, e.get (js "turn_id") = turn.get (js "turn_id") ∧
    e.get (js "session_id") = turn.get (js "session_id")

theorem resolved_empty : Resolved {} :=
  ⟨fun _ h => absurd h List.not_mem_nil, fun _ h => absurd h List.not_mem_nil⟩

theorem turnJson_refs (session : CanonicalSession) (endedAt : JsString) (source : CodexSourceLocation)
    (outcome : TurnOutcome) (terminal : TurnTerminal) (b : TurnBuilder) :
    (turnJson session endedAt source outcome terminal b).get (js "evidence_refs") =
      some (textsJson (uniqueSorted b.evidenceIds)) := by
  unfold turnJson
  cases b.response with
  | none => rfl
  | some response => rfl

theorem mem_uniqueSorted {values : List JsString} {v : JsString} : v ∈ uniqueSorted values ↔ v ∈ values := by
  have hgo : ∀ rest seen : List JsString,
      v ∈ rest.foldl (fun seen v => if v ∈ seen then seen else seen ++ [v]) seen ↔ v ∈ seen ∨ v ∈ rest := by
    intro rest
    induction rest with
    | nil => simp
    | cons w rest ih =>
      intro seen
      rw [List.foldl_cons, ih, List.mem_cons]
      split
      · next hw =>
        constructor
        · rintro (h | h)
          · exact .inl h
          · exact .inr (.inr h)
        · rintro (h | rfl | h)
          · exact .inl h
          · exact .inl hw
          · exact .inr h
      · rw [List.mem_append, List.mem_singleton, or_assoc]
  unfold uniqueSorted uniqueInOrder
  rw [List.mem_mergeSort, hgo]
  simp

/-- An evidence of the turn with its id. -/
structure EvidenceOf (b : TurnBuilder) (sessionId id : JsString) (e : Json) : Prop where
  id : e.get (js "evidence_id") = some (.str id)
  turn : e.get (js "turn_id") = some (.str b.barbaroTurnId)
  session : e.get (js "session_id") = some (.str sessionId)

theorem evidenceJson_of (id : JsString) (b : TurnBuilder) (sessionId agentId : JsString)
    (parent : List (JsString × Json)) (kind : String) (occurredAt : JsString) (content refs : Json) :
    EvidenceOf b sessionId id (evidenceJson id b sessionId agentId parent kind occurredAt content refs) :=
  ⟨rfl, rfl, rfl⟩

/-- A subagent of a turn in order has its evidence. -/
theorem subagentEvidence_ok {s : CodexSubagent} (h : s.Ok) (b : TurnBuilder) (sessionId : JsString) :
    ∃ id e, s.evidenceIds = [id] ∧ subagentEvidence b sessionId s = some e ∧ EvidenceOf b sessionId id e := by
  obtain ⟨id, hid, hne⟩ := h.evidence
  obtain ⟨source, hsource⟩ := h.source
  obtain ⟨time, htime, hset⟩ := h.occurredAt
  have hfilter : ∀ {v : JsString}, v ≠ [] → (some v).filter (fun v => decide (v ≠ [])) = some v := fun hv =>
    Option.filter_eq_some_iff.2 ⟨rfl, decide_eq_true hv⟩
  unfold subagentEvidence
  rw [hid, hsource, htime, List.head?_cons, hfilter hne, hfilter hset]
  exact ⟨id, _, rfl, rfl, evidenceJson_of ..⟩

/-- The evidence that a turn in order has deferred is that of its ids. -/
theorem flushDeferredEvidence_ok {b : TurnBuilder} (hok : b.Ok) (hlive : b.emitted = false) (sessionId : JsString) :
    (∀ id, id ∈ (flushDeferredEvidence E sessionId b).2.evidenceIds ↔
      ∃ e ∈ (flushDeferredEvidence E sessionId b).1, e.get (js "evidence_id") = some (.str id)) ∧
    ∀ e ∈ (flushDeferredEvidence E sessionId b).1, ∃ id, EvidenceOf b sessionId id e := by
  have hsub : ∀ e, e ∈ b.subagents.filterMap (subagentEvidence b sessionId) ↔
      ∃ s ∈ b.subagents, ∃ id, s.evidenceIds = [id] ∧ subagentEvidence b sessionId s = some e ∧
        EvidenceOf b sessionId id e := by
    intro e
    rw [List.mem_filterMap]
    constructor
    · rintro ⟨s, hs, he⟩
      obtain ⟨id, e', hid, he', hof⟩ := subagentEvidence_ok (hok.reported s hs) b sessionId
      rw [he] at he'
      cases he'
      exact ⟨s, hs, id, hid, he, hof⟩
    · rintro ⟨s, hs, -, -, he, -⟩
      exact ⟨s, hs, he⟩
  unfold flushDeferredEvidence
  dsimp only
  rw [hok.evidence hlive]
  constructor
  · intro id
    simp only [List.mem_append, List.mem_flatMap, List.mem_map, hsub]
    constructor
    · rintro (⟨s, hs, hid⟩ | ⟨usage, husage, rfl⟩)
      · obtain ⟨id', e, hid', he, hof⟩ := subagentEvidence_ok (hok.reported s hs) b sessionId
        rw [hid', List.mem_singleton] at hid
        exact ⟨e, .inr ⟨s, hs, id', hid', he, hof⟩, hid ▸ hof.id⟩
      · exact ⟨_, .inl ⟨usage, husage, rfl⟩, (evidenceJson_of ..).id⟩
    · rintro ⟨e, ⟨usage, husage, rfl⟩ | ⟨s, hs, id', hid', -, hof⟩, hid⟩
      · have heq := (evidenceJson_of (usageId E b usage) b sessionId b.agentId [] "usage" usage.occurredAt _ _).id.symm.trans hid
        cases heq
        exact .inr ⟨usage, husage, rfl⟩
      · have heq := hof.id.symm.trans hid
        cases heq
        exact .inl ⟨s, hs, by rw [hid']; exact List.mem_singleton_self _⟩
  · intro e he
    rcases List.mem_append.1 he with he | he
    · obtain ⟨usage, -, rfl⟩ := List.mem_map.1 he
      exact ⟨_, evidenceJson_of ..⟩
    · obtain ⟨s, -, id, -, -, hof⟩ := (hsub e).1 he
      exact ⟨id, hof⟩

/-- **The batch of a turn that ends.** -/
theorem finishTurn_resolved {b : TurnBuilder} (hok : b.Ok) (hlive : b.emitted = false) (session : CanonicalSession)
    (endedAt : JsString) (source : CodexSourceLocation) (outcome : TurnOutcome) (terminal : TurnTerminal)
    (n : CodexNormalizer) : Resolved (finishTurn E session endedAt source outcome terminal b n).2 := by
  obtain ⟨hrefs, hevidence⟩ := flushDeferredEvidence_ok (E := E) hok hlive session.barbaroSessionId
  obtain ⟨hsame, -, hids⟩ := settleCalls_same E (flushDeferredEvidence E session.barbaroSessionId b).2
  refine ⟨fun turn hturn => ?_, fun e he => ?_⟩
  · rw [List.mem_singleton.1 hturn]
    refine ⟨_, turnJson_refs .., fun id => ?_⟩
    rw [mem_uniqueSorted, hids]
    exact hrefs id
  · obtain ⟨id, -, hturn, hsession⟩ := hevidence e he
    refine ⟨_, List.mem_singleton_self _, hturn.trans ?_, hsession⟩
    exact (congrArg (fun id => some (Json.str id)) hsame.barbaroTurnId).symm

/-- **References are resolved.** Whatever the records of a trace, each turn is published together with the evidence it
refers to, and with no other. -/
theorem refs_resolved {records : List (Json × CodexSourceLocation)} {n : CodexNormalizer}
    {batches : List CodexNormalizationBatch} (h : acceptAll E process records {} = .ok (n, batches)) :
    ∀ batch ∈ batches, Resolved batch := by
  refine (acceptAll_invariant (fun n r hn hmove => ⟨hmove.ok hn, ?_⟩) (ok_init E) h).2
  cases hmove with
  | stays => exact resolved_empty
  | opens => exact resolved_empty
  | starts => exact resolved_empty
  | changes => exact resolved_empty
  | ends hd hsession hb hlive hgrows =>
    exact finishTurn_resolved (hgrows.ok (hn.builders _ (getBy_some hb).1)) (hgrows.emitted.trans hlive) _ _ _ _ _ _

theorem refs_resolved_turn : ∃ n batches, acceptAll traceHost { directory := [] } (tracedStart ++ tracedEnd) {} =
    .ok (n, batches) ∧ ∀ batch ∈ batches, Resolved batch := by
  obtain ⟨n, batches, hrun⟩ := tracedTurn_run
  exact ⟨n, batches, hrun, refs_resolved hrun⟩

/-! ## Numbers -/

/-- The number of a turn that has ended. -/
def CodexNormalizer.Closed (n : CodexNormalizer) (number : ℕ) : Prop :=
  ∃ b ∈ n.turns, b.emitted = true ∧ b.sequence = number

theorem CodexNormalizer.Ok.closed_put {n : CodexNormalizer} (h : n.Ok E) {b b' : TurnBuilder}
    (hb : n.get b.nativeTurnId = some b) (hsame : b.Same b') (hended : b.emitted = true → b'.emitted = true)
    {number : ℕ} (hclosed : n.Closed number) : (n.put b').Closed number := by
  obtain ⟨v, hv, hemitted, hnumber⟩ := hclosed
  have hput : (if v.nativeTurnId = b'.nativeTurnId then b' else v) ∈ (n.put b').turns := List.mem_map_of_mem hv
  refine ⟨_, hput, ?_⟩
  split
  · next hkey =>
    rw [getBy_only h.keys hv (hkey.trans hsame.nativeTurnId) hb] at hemitted hnumber
    exact ⟨hended hemitted, hsame.sequence.trans hnumber⟩
  · exact ⟨hemitted, hnumber⟩

/-- What a record publishes: nothing, or a turn with a number that was not closed, and then is. -/
theorem Move.numbers {n : CodexNormalizer} {r : CodexNormalizer × CodexNormalizationBatch} (h : Move E n r)
    (hn : n.Ok E) : (∀ number, n.Closed number → r.1.Closed number) ∧
      ∃ numbers : List ℕ, r.2.turns.map (·.get (js "sequence")) = numbers.map (some ∘ natJson) ∧ numbers.Nodup ∧
        ∀ number ∈ numbers, ¬ n.Closed number ∧ r.1.Closed number := by
  have hnone : ∃ numbers : List ℕ, ([] : List Json).map (·.get (js "sequence")) = numbers.map (some ∘ natJson) ∧
      numbers.Nodup ∧ ∀ number ∈ numbers, ¬ n.Closed number ∧ r.1.Closed number :=
    ⟨[], rfl, List.nodup_nil, fun _ h => absurd h List.not_mem_nil⟩
  cases h with
  | stays => exact ⟨fun _ h => h, hnone⟩
  | opens => exact ⟨fun _ h => h, hnone⟩
  | starts =>
    refine ⟨fun number hclosed => ?_, hnone⟩
    unfold startTurn
    split
    · exact hclosed
    · obtain ⟨b, hb, hclosed⟩ := hclosed
      exact ⟨b, List.mem_append_left _ hb, hclosed⟩
  | changes hd hb hgrows =>
    exact ⟨fun _ => hn.closed_put hb hgrows.toSame fun h => hgrows.emitted.trans h, hnone⟩
  | @ends d session b b' endedAt source outcome terminal hd hsession hb hlive hgrows =>
    have hflush : b'.Same (flushDeferredEvidence E session.barbaroSessionId b').2 := ⟨rfl, rfl, rfl, rfl⟩
    have hsame := hgrows.toSame.trans (hflush.trans (settleCalls_same E _).1)
    obtain ⟨hmem, -⟩ := getBy_some hb
    refine ⟨fun _ => hn.closed_put hb hsame fun _ => rfl, [b.sequence], ?_, List.nodup_singleton _, fun number hone => ?_⟩
    · exact congrArg (fun number => [some (natJson number)]) hsame.sequence
    rw [List.mem_singleton.1 hone]
    constructor
    · -- two turns have no number in common, and this one has not ended
      rintro ⟨v, hv, hemitted, hnumber⟩
      have hnodup : (n.turns.map TurnBuilder.sequence).Nodup := hn.ordered.imp fun h => Nat.ne_of_lt h
      rw [List.inj_on_of_nodup_map hnodup hv hmem hnumber, hlive] at hemitted
      cases hemitted
    · have hput := List.mem_map_of_mem (f := fun v : TurnBuilder =>
        if v.nativeTurnId = (settleCalls E (flushDeferredEvidence E session.barbaroSessionId b').2).nativeTurnId then
          settleCalls E (flushDeferredEvidence E session.barbaroSessionId b').2 else v) hmem
      rw [if_pos hsame.nativeTurnId.symm] at hput
      exact ⟨_, hput, rfl, hsame.sequence⟩

/-- **A turn is published once**: no two turns that a trace publishes have the same number. -/
theorem published_once {records : List (Json × CodexSourceLocation)} {n : CodexNormalizer}
    {batches : List CodexNormalizationBatch} (h : acceptAll E process records {} = .ok (n, batches)) :
    ∃ numbers : List ℕ, (batches.flatMap (·.turns)).map (·.get (js "sequence")) = numbers.map (some ∘ natJson) ∧
      numbers.Nodup ∧ ∀ number ∈ numbers, 1 ≤ number ∧ number < n.nextSequence := by
  have hrun : ∀ (records : List (Json × CodexSourceLocation)) (m : CodexNormalizer) (batches : List CodexNormalizationBatch),
      m.Ok E → acceptAll E process records m = .ok (n, batches) →
      (∀ number, m.Closed number → n.Closed number) ∧
      ∃ numbers : List ℕ, (batches.flatMap (·.turns)).map (·.get (js "sequence")) = numbers.map (some ∘ natJson) ∧
        numbers.Nodup ∧ ∀ number ∈ numbers, ¬ m.Closed number ∧ n.Closed number := by
    intro records
    induction records with
    | nil =>
      rintro m batches hm ⟨⟩
      exact ⟨fun _ h => h, [], rfl, List.nodup_nil, fun _ h => absurd h List.not_mem_nil⟩
    | cons record records ih =>
      intro m batches hm hrun
      obtain ⟨m', batch, rest, hstep, hrest, rfl⟩ := Resumable.run_cons.1 hrun
      obtain ⟨-, hrecord⟩ := accept_ok.1 hstep
      have hmove := acceptRecord_move E process record.1 record.2 m
      rw [hrecord] at hmove
      obtain ⟨hkept, first, hfirst, hone, hnew⟩ := hmove.numbers hm
      obtain ⟨hlater, numbers, hnumbers, hnodup, hothers⟩ := ih m' rest (hmove.ok hm) hrest
      refine ⟨fun number h => hlater number (hkept number h), first ++ numbers, ?_, ?_, ?_⟩
      · rw [List.flatMap_cons, List.map_append, List.map_append, hfirst, hnumbers]
      · refine List.nodup_append.2 ⟨hone, hnodup, fun k hk l hl heq => ?_⟩
        exact (hothers l hl).1 (heq ▸ (hnew k hk).2)
      · intro number hnumber
        rcases List.mem_append.1 hnumber with hmem | hmem
        · exact ⟨(hnew number hmem).1, hlater number (hnew number hmem).2⟩
        · exact ⟨fun hclosed => (hothers number hmem).1 (hkept number hclosed), (hothers number hmem).2⟩
  obtain ⟨-, numbers, hnumbers, hnodup, hclosed⟩ := hrun records {} batches (ok_init E) h
  refine ⟨numbers, hnumbers, hnodup, fun number hnumber => ?_⟩
  obtain ⟨b, hb, -, rfl⟩ := (hclosed number hnumber).2
  exact (acceptAll_ok (ok_init E) h).numbered b hb

theorem published_once_turn : ∃ n batches, acceptAll traceHost { directory := [] } (tracedStart ++ tracedEnd) {} =
    .ok (n, batches) ∧ ∃ numbers : List ℕ,
      (batches.flatMap (·.turns)).map (·.get (js "sequence")) = numbers.map (some ∘ natJson) ∧ numbers.Nodup ∧
        ∀ number ∈ numbers, 1 ≤ number ∧ number < n.nextSequence := by
  obtain ⟨n, batches, hrun⟩ := tracedTurn_run
  exact ⟨n, batches, hrun, published_once hrun⟩

end Barbaro.Codex
