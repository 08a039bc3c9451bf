import Barbaro.Providers.CodexResume

/-!
# A trace that is read in pieces

A trace grows while it is read. What is new of it is read by a normalizer that goes on from the snapshot of
the one before, and no such normalizer knows the turns that ended before its own records. As long as no
record starts one of them again, the pieces publish what one reading of the whole publishes.

* `Alike`: what a state shares with one that knows more ended turns.
* `acceptRecord_alike`: a record does the same to both.
* `incremental_one_shot`: the pieces and the whole.
-/

namespace Barbaro.Codex

open KeyedMap

variable {E : Host} {process : CodexProcess}

/-! ## States that stand for others -/

/-- A turn is there once. -/
def CodexNormalizer.Keyed (n : CodexNormalizer) : Prop := (n.turns.map TurnBuilder.nativeTurnId).Nodup

/-- The turns that have ended. -/
def CodexNormalizer.ended (n : CodexNormalizer) (id : JsString) : Prop := ∃ b, n.get id = some b ∧ b.emitted = true

/-- The first state knows the turns of the second that have not ended, and goes on as the second does. -/
structure Alike (m n : CodexNormalizer) : Prop where
  session : m.session = n.session
  current : m.currentTurnId = n.currentTurnId
  next : m.nextSequence = n.nextSequence
  turns : m.turns.filter TurnBuilder.isLive = n.turns.filter TurnBuilder.isLive
  ended : ∀ id, m.ended id → n.ended id

/-- The current turn has not ended. -/
def CodexNormalizer.Running (n : CodexNormalizer) : Prop :=
  ∀ id, n.currentTurnId = some id → id ∈ (n.turns.filter TurnBuilder.isLive).map TurnBuilder.nativeTurnId

theorem Alike.refl (n : CodexNormalizer) : Alike n n := ⟨rfl, rfl, rfl, rfl, fun _ h => h⟩

theorem Alike.trans {l m n : CodexNormalizer} (h : Alike l m) (h' : Alike m n) : Alike l n :=
  ⟨h.session.trans h'.session, h.current.trans h'.current, h.next.trans h'.next, h.turns.trans h'.turns,
    fun id hid => h'.ended id (h.ended id hid)⟩

theorem Alike.diagnostics {m n : CodexNormalizer} (h : Alike m n) (d e : CodexDiagnostics) :
    Alike { m with diagnostics := d } { n with diagnostics := e } :=
  ⟨h.session, h.current, h.next, h.turns, h.ended⟩

theorem Alike.running {m n : CodexNormalizer} (h : Alike m n) : m.Running ↔ n.Running := by
  unfold CodexNormalizer.Running
  rw [h.current, h.turns]

/-- Where a turn is in two states of which one stands for the other. -/
inductive Found (m n : Option TurnBuilder) : Prop
  | live {b : TurnBuilder} : b.emitted = false → m = some b → n = some b → Found m n
  | ended {b : TurnBuilder} : b.emitted = true → n = some b → (∀ b', m = some b' → b'.emitted = true) → Found m n
  | nowhere : m = none → n = none → Found m n

/-- A turn that has not ended, as the live turns of a state have it. -/
theorem CodexNormalizer.Keyed.get_live {n : CodexNormalizer} (h : n.Keyed) {id : JsString} {b : TurnBuilder}
    (hlive : b.emitted = false) :
    n.get id = some b ↔ getBy TurnBuilder.nativeTurnId id (n.turns.filter TurnBuilder.isLive) = some b := by
  rw [getBy_filter h]
  constructor
  · intro hget
    exact Option.filter_eq_some_iff.2 ⟨hget, TurnBuilder.isLive_iff.2 hlive⟩
  · intro hget
    exact (Option.filter_eq_some_iff.1 hget).1

theorem Alike.found {m n : CodexNormalizer} (h : Alike m n) (hm : m.Keyed) (hn : n.Keyed) (id : JsString) :
    Found (m.get id) (n.get id) := by
  have hboth : ∀ b : TurnBuilder, b.emitted = false → (m.get id = some b ↔ n.get id = some b) := by
    intro b hb
    rw [hm.get_live hb, hn.get_live hb, h.turns]
  cases hmid : m.get id with
  | none =>
    cases hnid : n.get id with
    | none => exact .nowhere rfl rfl
    | some b =>
      cases hb : b.emitted with
      | true => exact .ended hb rfl fun b' hb' => by cases hb'
      | false =>
        have hthere := (hboth b hb).2 hnid
        rw [hmid] at hthere
        cases hthere
  | some b =>
    cases hb : b.emitted with
    | false => exact .live hb rfl ((hboth b hb).1 hmid)
    | true =>
      obtain ⟨b', hb', hended⟩ := h.ended id ⟨b, hmid, hb⟩
      rw [hb']
      refine .ended hended rfl fun b'' hb'' => ?_
      cases hb''
      exact hb

/-! ## Turns that change -/

theorem CodexNormalizer.get_put_eq {n : CodexNormalizer} {b : TurnBuilder} {id : JsString} :
    (n.put b).get id = if id = b.nativeTurnId then (n.get id).map fun _ => b else n.get id :=
  getBy_putBy

theorem CodexNormalizer.Keyed.live_put {n : CodexNormalizer} (h : n.Keyed) {b b' : TurnBuilder}
    (hb : n.get b.nativeTurnId = some b) (hgrows : b.Grows b') (hlive : b.emitted = false) :
    (n.put b').turns.filter TurnBuilder.isLive = putBy TurnBuilder.nativeTurnId b' (n.turns.filter TurnBuilder.isLive) := by
  refine filter_putBy (TurnBuilder.isLive_iff.2 (hgrows.emitted.trans hlive)) fun v hv hkey => ?_
  rw [getBy_only h hv (hkey.trans hgrows.nativeTurnId) hb]
  exact TurnBuilder.isLive_iff.2 hlive

/-- A turn that has not ended changes in both states. -/
theorem Alike.put {m n : CodexNormalizer} (h : Alike m n) (hm : m.Keyed) (hn : n.Keyed) {b b' : TurnBuilder}
    (hmb : m.get b.nativeTurnId = some b) (hnb : n.get b.nativeTurnId = some b) (hgrows : b.Grows b')
    (hlive : b.emitted = false) : Alike (m.put b') (n.put b') ∧ (n.Running → (n.put b').Running) := by
  have hturns : (m.put b').turns.filter TurnBuilder.isLive = (n.put b').turns.filter TurnBuilder.isLive := by
    rw [hm.live_put hmb hgrows hlive, hn.live_put hnb hgrows hlive, h.turns]
  refine ⟨⟨h.session, h.current, h.next, hturns, ?_⟩, ?_⟩
  · rintro id ⟨v, hv, hended⟩
    rw [CodexNormalizer.get_put_eq] at hv
    unfold CodexNormalizer.ended
    rw [CodexNormalizer.get_put_eq]
    by_cases hid : id = b'.nativeTurnId
    · rw [if_pos hid] at hv
      obtain ⟨_, -, rfl⟩ := Option.map_eq_some_iff.1 hv
      rw [hgrows.emitted, hlive] at hended
      cases hended
    · rw [if_neg hid] at hv ⊢
      exact h.ended id ⟨v, hv, hended⟩
  · intro hrunning id hid
    rw [hn.live_put hnb hgrows hlive, keys_putBy]
    exact hrunning id hid

/-- A turn that has ended changes, and nothing is seen of it. -/
theorem CodexNormalizer.Keyed.put_ended {n : CodexNormalizer} (h : n.Keyed) {b b' : TurnBuilder}
    (hb : n.get b.nativeTurnId = some b) (hgrows : b.Grows b') (hended : b.emitted = true) :
    Alike n (n.put b') ∧ Alike (n.put b') n := by
  have hout : b'.isLive = false := TurnBuilder.isLive_false.2 (hgrows.emitted.trans hended)
  have hturns : (n.put b').turns.filter TurnBuilder.isLive = n.turns.filter TurnBuilder.isLive := by
    unfold CodexNormalizer.put
    rw [filter_putBy_out hout, List.filter_eq_self]
    intro v hv
    obtain ⟨hv, hlive⟩ := List.mem_filter.1 hv
    refine decide_eq_true fun hkey => ?_
    rw [getBy_only h hv (hkey.trans hgrows.nativeTurnId) hb, TurnBuilder.isLive_iff, hended] at hlive
    cases hlive
  have hstatus : ∀ id, (n.put b').ended id ↔ n.ended id := by
    intro id
    unfold CodexNormalizer.ended
    rw [CodexNormalizer.get_put_eq]
    by_cases hid : id = b'.nativeTurnId
    · have hthere : n.get id = some b := by
        rw [hid, hgrows.nativeTurnId]
        exact hb
      rw [if_pos hid, hthere]
      constructor
      · exact fun _ => ⟨b, rfl, hended⟩
      · exact fun _ => ⟨b', rfl, hgrows.emitted.trans hended⟩
    · rw [if_neg hid]
  exact ⟨⟨rfl, rfl, rfl, hturns.symm, fun id => (hstatus id).2⟩, ⟨rfl, rfl, rfl, hturns, fun id => (hstatus id).1⟩⟩

theorem finishTurn_alike {m n : CodexNormalizer} (h : Alike m n) {session : CanonicalSession} {endedAt : JsString}
    {source : CodexSourceLocation} {outcome : TurnOutcome} {terminal : TurnTerminal} {b : TurnBuilder}
    (hnb : (n.get b.nativeTurnId).isSome = true) :
    (finishTurn E session endedAt source outcome terminal b m).2 =
      (finishTurn E session endedAt source outcome terminal b n).2 ∧
    Alike (finishTurn E session endedAt source outcome terminal b m).1
      (finishTurn E session endedAt source outcome terminal b n).1 ∧
    (n.Running → (finishTurn E session endedAt source outcome terminal b n).1.Running) := by
  obtain ⟨settled, hsettled⟩ : ∃ c, c = settleCalls E (flushDeferredEvidence E session.barbaroSessionId b).2 := ⟨_, rfl⟩
  have hid : settled.nativeTurnId = b.nativeTurnId := by
    rw [hsettled, (settleCalls_same E _).1.nativeTurnId]
    rfl
  have hemitted : settled.emitted = true := by
    rw [hsettled]
    rfl
  have hout : settled.isLive = false := TurnBuilder.isLive_false.2 hemitted
  have hlive : ∀ k : CodexNormalizer, (k.put settled).turns.filter TurnBuilder.isLive =
      (k.turns.filter TurnBuilder.isLive).filter fun v => decide (v.nativeTurnId ≠ b.nativeTurnId) := by
    intro k
    rw [← hid]
    exact filter_putBy_out hout
  have hcurrent : (if m.currentTurnId = some b.nativeTurnId then none else m.currentTurnId) =
      if n.currentTurnId = some b.nativeTurnId then none else n.currentTurnId := by
    rw [h.current]
  unfold finishTurn
  dsimp only
  rw [← hsettled]
  refine ⟨rfl, ⟨h.session, hcurrent, h.next, ?_, ?_⟩, ?_⟩
  · exact (hlive m).trans ((congrArg _ h.turns).trans (hlive n).symm)
  · rintro id ⟨v, hv, hended⟩
    change (m.put settled).get id = some v at hv
    change ∃ v, (n.put settled).get id = some v ∧ v.emitted = true
    rw [CodexNormalizer.get_put_eq] at hv ⊢
    by_cases hkey : id = settled.nativeTurnId
    · obtain ⟨w, hw⟩ := Option.isSome_iff_exists.1 hnb
      rw [if_pos hkey, hkey, hid, hw]
      exact ⟨settled, rfl, hemitted⟩
    · rw [if_neg hkey] at hv ⊢
      exact h.ended id ⟨v, hv, hended⟩
  · intro hrunning id hnow
    change (if n.currentTurnId = some b.nativeTurnId then none else n.currentTurnId) = some id at hnow
    change id ∈ ((n.put settled).turns.filter TurnBuilder.isLive).map TurnBuilder.nativeTurnId
    split at hnow
    · cases hnow
    · next hother =>
      obtain ⟨v, hv, rfl⟩ := List.mem_map.1 (hrunning id hnow)
      rw [hlive]
      refine List.mem_map_of_mem (List.mem_filter.2 ⟨hv, decide_eq_true fun heq => hother ?_⟩)
      rw [← heq]
      exact hnow

/-- A turn that starts is none that has ended. -/
theorem ended_append {k : CodexNormalizer} {b : TurnBuilder} {current : Option JsString} {next : ℕ}
    (hb : b.emitted = false) (id : JsString) :
    CodexNormalizer.ended { k with turns := k.turns ++ [b], nextSequence := next, currentTurnId := current } id ↔
      k.ended id := by
  have hget : CodexNormalizer.get { k with turns := k.turns ++ [b], nextSequence := next, currentTurnId := current } id =
      (k.get id).or ([b].find? (·.nativeTurnId = id)) := List.find?_append
  unfold CodexNormalizer.ended
  rw [hget]
  cases k.get id with
  | some v => rfl
  | none =>
    rw [Option.none_or]
    constructor
    · rintro ⟨v, hv, hended⟩
      rw [List.mem_singleton.1 (List.mem_of_find?_eq_some hv), hb] at hended
      cases hended
    · rintro ⟨v, hv, -⟩
      cases hv

theorem startTurn_alike {m n : CodexNormalizer} (h : Alike m n) (hm : m.Keyed) (hn : n.Keyed)
    {session : CanonicalSession} {nativeTurnId startedAt : JsString} {source : CodexSourceLocation}
    (hagain : ¬ n.ended nativeTurnId) :
    Alike (startTurn E session nativeTurnId startedAt source m) (startTurn E session nativeTurnId startedAt source n) ∧
    (startTurn E session nativeTurnId startedAt source n).Running := by
  unfold startTurn
  rcases h.found hm hn nativeTurnId with ⟨hlive, hmid, hnid⟩ | ⟨hended, hnid, -⟩ | ⟨hmid, hnid⟩
  · rw [hmid, hnid]
    refine ⟨⟨h.session, rfl, h.next, h.turns, h.ended⟩, ?_⟩
    rintro id ⟨⟩
    rw [hn.get_live hlive] at hnid
    obtain ⟨hmem, hkey⟩ := getBy_some hnid
    rw [← hkey]
    exact List.mem_map_of_mem hmem
  · exact absurd ⟨_, hnid, hended⟩ hagain
  · rw [hmid, hnid]
    have hnew : ∀ (k : CodexNormalizer) (b : TurnBuilder), b.isLive = true →
        (k.turns ++ [b]).filter TurnBuilder.isLive = k.turns.filter TurnBuilder.isLive ++ [b] := by
      intro k b hb
      rw [List.filter_append, List.filter_cons_of_pos hb, List.filter_nil]
    refine ⟨⟨h.session, rfl, congrArg (· + 1) h.next, ?_, ?_⟩, ?_⟩
    · simp only [Option.isSome_none, Bool.false_eq_true, if_false]
      rw [hnew _ _ rfl, hnew _ _ rfl, h.turns, h.next]
    · exact fun id hid => (ended_append rfl id).2 (h.ended id ((ended_append rfl id).1 hid))
    · rintro id ⟨⟩
      simp only [Option.isSome_none, Bool.false_eq_true, if_false]
      rw [hnew _ _ rfl, List.map_append]
      exact List.mem_append_right _ (List.mem_singleton_self _)

/-! ## Records -/

theorem builderForPayload_found {m n : CodexNormalizer} (h : Alike m n) (hm : m.Keyed) (hn : n.Keyed) (payload : Json) :
    Found (builderForPayload payload m) (builderForPayload payload n) := by
  unfold builderForPayload
  dsimp only
  split
  · exact h.found hm hn _
  · rw [h.current]
    cases n.currentTurnId with
    | none => exact .nowhere rfl rfl
    | some id => exact h.found hm hn id

/-- Nothing is seen of an event of a turn that has ended. -/
theorem acceptTurnEvent_ended {n : CodexNormalizer} (h : n.Keyed) {eventType timestamp : JsString} {payload : Json}
    {source : CodexSourceLocation} {session : CanonicalSession} {b : TurnBuilder} (htime : timestamp ≠ [])
    (hb : n.get b.nativeTurnId = some b) (hended : b.emitted = true) :
    Alike n (acceptTurnEvent E process eventType payload timestamp source session b n).1 ∧
    Alike (acceptTurnEvent E process eventType payload timestamp source session b n).1 n ∧
    (acceptTurnEvent E process eventType payload timestamp source session b n).2 = {} := by
  unfold acceptTurnEvent
  dsimp only
  rw [hended]
  split
  · exact ⟨.refl n, .refl n, rfl⟩
  split
  · exact ⟨.refl n, .refl n, rfl⟩
  · obtain ⟨hto, hfrom⟩ := h.put_ended hb (eventBuilder_grows E _ eventType payload htime source b) hended
    exact ⟨hto, hfrom, rfl⟩

theorem acceptTurnEvent_alike {m n : CodexNormalizer} (h : Alike m n) (hm : m.Keyed) (hn : n.Keyed)
    {eventType timestamp : JsString} {payload : Json} {source : CodexSourceLocation} {session : CanonicalSession}
    {b : TurnBuilder} (htime : timestamp ≠ []) (hmb : m.get b.nativeTurnId = some b) (hnb : n.get b.nativeTurnId = some b)
    (hlive : b.emitted = false) :
    (acceptTurnEvent E process eventType payload timestamp source session b m).2 =
      (acceptTurnEvent E process eventType payload timestamp source session b n).2 ∧
    Alike (acceptTurnEvent E process eventType payload timestamp source session b m).1
      (acceptTurnEvent E process eventType payload timestamp source session b n).1 ∧
    (n.Running → (acceptTurnEvent E process eventType payload timestamp source session b n).1.Running) := by
  have hthere : ∀ b' : TurnBuilder, b.Grows b' → (n.get b'.nativeTurnId).isSome = true := by
    intro b' hgrows
    rw [hgrows.nativeTurnId, hnb]
    rfl
  unfold acceptTurnEvent
  dsimp only
  rw [hlive]
  split
  · exact finishTurn_alike h (hthere _ (completedBuilder_grows payload b))
  split
  · exact finishTurn_alike h (hthere b (.refl b))
  · obtain ⟨halike, hrunning⟩ := h.put hm hn hmb hnb (eventBuilder_grows E _ eventType payload htime source b) hlive
    exact ⟨rfl, halike, hrunning⟩

/-- The outcome of a record in two states. -/
structure SameMove (n : CodexNormalizer) (r s : CodexNormalizer × CodexNormalizationBatch) : Prop where
  batch : r.2 = s.2
  alike : Alike r.1 s.1
  running : n.Running → s.1.Running

theorem SameMove.counted {m n : CodexNormalizer} (h : Alike m n) (d e : CodexDiagnostics) :
    SameMove n ({ m with diagnostics := d }, {}) ({ n with diagnostics := e }, {}) :=
  ⟨rfl, h.diagnostics d e, id⟩

theorem SameMove.noted {n : CodexNormalizer} {d : CodexDiagnostics} {r s : CodexNormalizer × CodexNormalizationBatch}
    (h : SameMove { n with diagnostics := d } r s) : SameMove n r s :=
  ⟨h.batch, h.alike, h.running⟩

/-- The start of a turn, as the attestation of a trace reads it. -/
theorem startedTurn_event {value : Json} {envelope : CodexEnvelope} {eventType id : JsString}
    (henvelope : decodeCodexEnvelope E value = .ok envelope) (hevent : envelope.type = js "event_msg")
    (hobject : isObject (some envelope.payload) = true) (htype : namedField "type" envelope.payload = some eventType)
    (hstart : eventType = js "task_started" ∨ eventType = js "turn_started")
    (hid : namedField "turn_id" envelope.payload = some id) : startedTurn E value = some id := by
  have htype' : Claude.stringField "type" envelope.payload = some eventType := htype
  have hid' : Claude.stringField "turn_id" envelope.payload = some id := hid
  unfold startedTurn
  rw [henvelope]
  dsimp only
  rw [hevent, hobject, htype', hid']
  rcases hstart with rfl | rfl
  · rfl
  · rfl

theorem acceptTypedEvent_alike {m n : CodexNormalizer} (h : Alike m n) (hm : m.Keyed) (hn : n.Keyed)
    {eventType timestamp : JsString} {payload : Json} {source : CodexSourceLocation} (htime : timestamp ≠ [])
    (hagain : eventType = js "task_started" ∨ eventType = js "turn_started" → ∀ id,
      namedField "turn_id" payload = some id → ¬ n.ended id) :
    SameMove n (acceptTypedEvent E process eventType payload timestamp source m)
      (acceptTypedEvent E process eventType payload timestamp source n) := by
  unfold acceptTypedEvent
  rw [h.session]
  split
  · next hstart =>
    split
    · next nativeTurnId session hid hsession =>
      obtain ⟨hstarted, hruns⟩ := startTurn_alike (E := E) h hm hn (hagain hstart nativeTurnId hid)
      exact ⟨rfl, hstarted, fun _ => hruns⟩
    · exact SameMove.counted h _ _
  split
  · exact ⟨rfl, h, id⟩
  rcases builderForPayload_found h hm hn payload with ⟨hlive, hmb, hnb⟩ | ⟨hgone, hnb, hmb⟩ | ⟨hmb, hnb⟩
  · rw [hmb, hnb]
    cases n.session with
    | none => exact SameMove.counted h _ _
    | some session =>
      obtain ⟨hbatch, hstep, hruns⟩ := acceptTurnEvent_alike h hm hn htime (builderForPayload_get hmb)
        (builderForPayload_get hnb) hlive
      exact ⟨hbatch, hstep, hruns⟩
  · rw [hnb]
    cases n.session with
    | none =>
      cases builderForPayload payload m with
      | none => exact SameMove.counted h _ _
      | some b' => exact SameMove.counted h _ _
    | some session =>
      obtain ⟨hto, -, hbatch⟩ := acceptTurnEvent_ended hn htime (builderForPayload_get hnb) hgone
      cases hmb' : builderForPayload payload m with
      | none => exact ⟨hbatch.symm, (h.diagnostics _ n.diagnostics).trans hto, hto.running.1⟩
      | some b' =>
        obtain ⟨-, hfrom, hbatch'⟩ := acceptTurnEvent_ended hm htime (builderForPayload_get hmb') (hmb b' hmb')
        exact ⟨hbatch'.trans hbatch.symm, hfrom.trans (h.trans hto), hto.running.1⟩
  · rw [hmb, hnb]
    exact SameMove.counted h _ _

theorem acceptTypedItem_alike {m n : CodexNormalizer} (h : Alike m n) (hm : m.Keyed) (hn : n.Keyed)
    (responseType : JsString) (payload : Json) (source : CodexSourceLocation) :
    SameMove n (acceptTypedItem E responseType payload source m, {})
      (acceptTypedItem E responseType payload source n, {}) := by
  unfold acceptTypedItem
  rcases builderForPayload_found h hm hn payload with ⟨hlive, hmb, hnb⟩ | ⟨hgone, hnb, hmb⟩ | ⟨hmb, hnb⟩
  · rw [hmb, hnb]
    obtain ⟨hput, hruns⟩ := h.put hm hn (builderForPayload_get hmb) (builderForPayload_get hnb)
      (responseBuilder_grows E responseType payload source _) hlive
    exact ⟨rfl, hput, hruns⟩
  · rw [hnb]
    obtain ⟨hto, -⟩ := hn.put_ended (builderForPayload_get hnb) (responseBuilder_grows E responseType payload source _) hgone
    cases hmb' : builderForPayload payload m with
    | none => exact ⟨rfl, (h.diagnostics _ n.diagnostics).trans hto, hto.running.1⟩
    | some b' =>
      obtain ⟨-, hfrom⟩ := hm.put_ended (builderForPayload_get hmb')
        (responseBuilder_grows E responseType payload source b') (hmb b' hmb')
      exact ⟨rfl, hfrom.trans (h.trans hto), hto.running.1⟩
  · rw [hmb, hnb]
    exact SameMove.counted h _ _

theorem acceptSessionMeta_alike {m n : CodexNormalizer} (h : Alike m n) (payload : Json) :
    SameMove n (acceptSessionMeta E payload m, {}) (acceptSessionMeta E payload n, {}) := by
  unfold acceptSessionMeta
  split
  · exact SameMove.counted h m.diagnostics n.diagnostics
  by_cases hsome : n.session.isSome = true
  · rw [if_pos hsome, if_pos (h.session ▸ hsome)]
    exact SameMove.counted h _ _
  · rw [if_neg hsome, if_neg (h.session ▸ hsome)]
    split
    · exact SameMove.counted h m.diagnostics n.diagnostics
    · exact ⟨rfl, ⟨rfl, h.current, h.next, h.turns, h.ended⟩, id⟩

/-- The record starts a turn that has ended. -/
def Restarts (E : Host) (value : Json) (n : CodexNormalizer) : Prop := ∃ id, startedTurn E value = some id ∧ n.ended id

/-- **A record** does the same to both states. -/
theorem acceptRecord_alike {m n : CodexNormalizer} (h : Alike m n) (hm : m.Keyed) (hn : n.Keyed) {value : Json}
    {source : CodexSourceLocation} (hagain : ¬ Restarts E value n) :
    SameMove n (acceptRecord E process value source m) (acceptRecord E process value source n) := by
  unfold acceptRecord
  dsimp only
  split
  · exact SameMove.counted h _ _
  next envelope henvelope =>
  split
  · exact SameMove.noted (acceptSessionMeta_alike (h.diagnostics _ _) envelope.payload)
  split
  · next hevent =>
    unfold acceptEvent
    split
    · exact SameMove.counted h _ _
    · next eventType htype =>
      have htime := (decodeCodexEnvelope_ne E henvelope).1
      refine SameMove.noted (acceptTypedEvent_alike (h.diagnostics _ _) ?_ ?_ htime ?_)
      · exact hm
      · exact hn
      intro hstart id hid hgone
      refine hagain ⟨id, ?_, hgone⟩
      split at htype
      · next hobject => exact startedTurn_event henvelope hevent hobject htype hstart hid
      · cases htype
  split
  · unfold acceptResponseItem
    split
    · exact SameMove.counted h _ _
    · refine SameMove.noted (acceptTypedItem_alike (h.diagnostics _ _) ?_ ?_ _ envelope.payload source)
      · exact hm
      · exact hn
  · exact SameMove.counted h _ _

/-! ## Pieces -/

variable (E process)

/-- The pieces of a trace, each from the snapshot that the one before it has left. -/
def acceptPieces : List (List (Json × CodexSourceLocation)) → CodexNormalizer →
    Except Failure (CodexNormalizer × List CodexNormalizationBatch) :=
  Resumable.resumed (fun record => accept E process record.1 record.2) fun n => restore E (snapshot n)

/-- No record starts a turn that has ended. -/
def NoRestart : List (Json × CodexSourceLocation) → CodexNormalizer → Prop :=
  Resumable.Along (fun record => accept E process record.1 record.2) fun record n => ¬ Restarts E record.1 n

/-- A state of the pieces, and the state of the whole that it stands for. -/
structure StandsFor (m n : CodexNormalizer) : Prop extends Alike m n where
  left : m.Ok E
  right : n.Ok E
  running : n.Running
  records : m.diagnostics.records = n.diagnostics.records

/-- The session has an actor, and all its records can be counted. -/
structure CanBeSaved (n : CodexNormalizer) : Prop where
  actor : ∀ session, n.session = some session → session.actorId ≠ []
  safe : n.diagnostics.records < maxSafeInteger

variable {E process}

theorem Move.session {n : CodexNormalizer} {r : CodexNormalizer × CodexNormalizationBatch} (h : Move E n r)
    {session : CanonicalSession} (hsession : n.session = some session) : r.1.session = some session := by
  cases h with
  | stays => exact hsession
  | opens hd hnone =>
    rw [hnone] at hsession
    cases hsession
  | starts =>
    unfold startTurn
    split
    · exact hsession
    · exact hsession
  | changes => exact hsession
  | ends => exact hsession

theorem StandsFor.goesOn {m n : CodexNormalizer} (h : StandsFor E m n) (hn : CanBeSaved n) : m.GoesOn := by
  refine ⟨fun session hsession => hn.actor session (h.session ▸ hsession), fun id hid => ?_⟩
  obtain ⟨b, hb, rfl⟩ := List.mem_map.1 (h.toAlike.running.2 h.running id hid)
  obtain ⟨hb, hlive⟩ := List.mem_filter.1 hb
  exact ⟨b, getBy_mem h.left.keys hb, TurnBuilder.isLive_iff.1 hlive⟩

theorem total_sorted (values : CountMap) : CountMap.total (mapToSortedRecord values) = CountMap.total values :=
  ((List.mergeSort_perm values _).map Prod.snd).sum_nat

theorem CodexDiagnostics.sorted_weight (d : CodexDiagnostics) : d.sorted.weight = d.weight := by
  unfold CodexDiagnostics.weight CodexDiagnostics.sorted
  rw [total_sorted, total_sorted, total_sorted]

theorem named_sorted {values : CountMap} (h : CountMap.Named values) : CountMap.Named (mapToSortedRecord values) :=
  fun entry hentry => h entry (List.mem_mergeSort.1 hentry)

/-- What goes on of a state in order is in order. -/
theorem CodexNormalizer.Ok.live {n : CodexNormalizer} (h : n.Ok E) (hon : n.GoesOn) : n.live.Ok E := by
  have hmem : ∀ b ∈ n.live.turns, b ∈ n.turns := fun b hb => (List.mem_filter.1 hb).1
  have hsub : List.Sublist n.live.turns n.turns := List.filter_sublist
  refine ⟨h.keys.sublist (hsub.map _), h.ordered.sublist (hsub.map _), fun b hb => h.numbered b (hmem b hb),
    fun b hb => h.builders b (hmem b hb), h.session, fun b hb => h.owned b (hmem b hb), fun id hid => ?_, h.first, ?_⟩
  · refine ⟨(h.current id hid).1, ?_⟩
    obtain ⟨b, hb, hlive⟩ := hon.current id hid
    rw [h.live_get, hb, Option.filter_some, TurnBuilder.isLive_iff.2 hlive]
    rfl
  · refine ⟨?_, h.counted.orphans, ?_, h.counted.next⟩
    · exact (CodexDiagnostics.sorted_weight n.diagnostics).trans_le h.counted.weight
    · exact ⟨named_sorted h.counted.named.root, named_sorted h.counted.named.event, named_sorted h.counted.named.response⟩

theorem StandsFor.live {m n : CodexNormalizer} (h : StandsFor E m n) (hon : m.GoesOn) : StandsFor E m.live n := by
  refine ⟨⟨h.session, h.current, h.next, ?_, ?_⟩, h.left.live hon, h.right, h.running, h.records⟩
  · change (m.turns.filter TurnBuilder.isLive).filter TurnBuilder.isLive = _
    rw [List.filter_filter, ← h.turns]
    simp only [Bool.and_self]
  · rintro id ⟨b, hb, hended⟩
    rw [h.left.live_get] at hb
    exact h.ended id ⟨b, (Option.filter_eq_some_iff.1 hb).1, hended⟩

/-- **A snapshot stands for the state** it was taken of. -/
theorem snapshot_faithful : Resumable.Faithful (fun record : Json × CodexSourceLocation => accept E process record.1 record.2)
    (fun n => restore E (snapshot n)) (fun record n => ¬ Restarts E record.1 n) CanBeSaved (StandsFor E) where
  step_ok := by
    rintro ⟨value, source⟩ m n n' batch h hagain hstep
    obtain ⟨hsource, hrecord⟩ := accept_ok.1 hstep
    have hmove := acceptRecord_move E process value source m
    have hmove' := acceptRecord_move E process value source n
    obtain ⟨hbatch, halike, hruns⟩ :=
      @acceptRecord_alike E process m n h.toAlike h.left.keys h.right.keys value source hagain
    refine ⟨(acceptRecord E process value source m).1, accept_ok.2 ⟨hsource, ?_⟩, ?_⟩
    · rw [hrecord] at hbatch
      exact Prod.ext rfl hbatch
    · have hrecords := hmove.records
      have hrecords' := hmove'.records
      have hok := hmove'.ok h.right
      rw [hrecord] at halike hruns hrecords' hok
      exact ⟨halike, hmove.ok h.left, hok, hruns h.running, by rw [hrecords, hrecords', h.records]⟩
  done_back := by
    rintro ⟨value, source⟩ n n' batch hstep hdone
    obtain ⟨-, hrecord⟩ := accept_ok.1 hstep
    have hmove := acceptRecord_move E process value source n
    rw [hrecord] at hmove
    refine ⟨fun session hsession => hdone.actor session (hmove.session hsession), ?_⟩
    have hsafe := hdone.safe
    have hrecords := hmove.records
    dsimp only at hrecords
    omega
  save_ok := by
    intro m n h hdone
    have hon := h.goesOn hdone
    have hsafe : m.diagnostics.records < maxSafeInteger := by
      rw [h.records]
      exact hdone.safe
    exact ⟨m.live, (h.left.restore_iff hsafe).2 ⟨hon, rfl⟩, h.live hon⟩

/-- **Pieces and whole.** A trace in pieces publishes what it publishes at once, record by record, and goes on with
the same turns, if no record starts a turn again that has ended. -/
theorem incremental_one_shot {pieces : List (List (Json × CodexSourceLocation))} {n : CodexNormalizer}
    {batches : List CodexNormalizationBatch} (hrun : acceptAll E process pieces.flatten {} = .ok (n, batches))
    (hagain : NoRestart E process pieces.flatten {}) (hactor : ∀ session, n.session = some session → session.actorId ≠ [])
    (hsafe : pieces.flatten.length < maxSafeInteger) :
    ∃ m, acceptPieces E process pieces {} = .ok (m, batches) ∧ m.session = n.session ∧
      m.currentTurnId = n.currentTurnId ∧ m.nextSequence = n.nextSequence ∧
      m.turns.filter TurnBuilder.isLive = n.turns.filter TurnBuilder.isLive := by
  have hrecords : n.diagnostics.records = pieces.flatten.length := by
    rw [acceptAll_records hrun]
    exact Nat.zero_add _
  have hstart : StandsFor E ({} : CodexNormalizer) {} :=
    ⟨.refl _, ok_init E, ok_init E, fun id hid => (by cases hid), rfl⟩
  obtain ⟨m, hm, hstands⟩ := (@snapshot_faithful E process).resumed hstart hagain hrun
    ⟨hactor, by rw [hrecords]; exact hsafe⟩
  exact ⟨m, hm, hstands.session, hstands.current, hstands.next, hstands.turns⟩

theorem not_restarts {E : Host} {value : Json} {n : CodexNormalizer} (h : startedTurn E value = none) : ¬ Restarts E value n := by
  rintro ⟨id, hid, -⟩
  rw [h] at hid
  cases hid

theorem incremental_one_shot_turn : ∃ n batches m,
    acceptAll traceHost { directory := [] } (tracedStart ++ tracedEnd) {} = .ok (n, batches) ∧
    acceptPieces traceHost { directory := [] } [tracedStart, tracedEnd] {} = .ok (m, batches) := by
  obtain ⟨n, batches, hrun⟩ := tracedTurn_run
  have hagain : NoRestart traceHost { directory := [] } (tracedStart ++ tracedEnd) {} := by
    refine ⟨not_restarts rfl, fun s o h => ⟨?_, fun _ _ _ => ⟨not_restarts rfl, fun _ _ _ =>
      ⟨not_restarts rfl, fun _ _ _ => trivial⟩⟩⟩⟩
    cases h
    rintro ⟨id, -, b, hb, -⟩
    cases hb
  have hactor : ∀ session, n.session = some session → session.actorId ≠ [] := by
    cases hrun
    rintro session ⟨⟩
    decide
  obtain ⟨m, hm, -⟩ := @incremental_one_shot traceHost _ [tracedStart, tracedEnd] n batches hrun hagain hactor (by decide)
  exact ⟨n, batches, m, hrun, hm⟩

end Barbaro.Codex
