import Barbaro.Lib.Resumable
import Barbaro.Providers.CodexBuilders

/-!
# What a record does to the normalizer

A record is counted, and does one thing more at most: it opens the session, starts a turn, changes one or
ends one. From this one statement the state of the normalizer is in order after every run.

* `Move`: what a record may do.
* `acceptRecord_move`: every record does that.
* `CodexNormalizer.Ok`: a state in order.
* `acceptAll_ok`: every run keeps it.
-/

namespace Barbaro.Codex

open KeyedMap
open Claude (stringField)

/-! ## Counting -/

/-- How often a type was met that is not known. -/
def CountMap.total (values : CountMap) : ℕ := (values.map Prod.snd).sum

/-- The records that one of the counters of what is no turn has counted. -/
def CodexDiagnostics.weight (d : CodexDiagnostics) : ℕ :=
  d.invalidEnvelopes + d.repeatedSessionMeta + CountMap.total d.unknownRootTypes + CountMap.total d.unknownEventTypes +
    CountMap.total d.unknownResponseTypes

/-- The counters of types: each has a name and has counted. -/
def CountMap.Named (values : CountMap) : Prop := ∀ entry ∈ values, entry.1 ≠ [] ∧ 0 < entry.2

structure CodexDiagnostics.Named (d : CodexDiagnostics) : Prop where
  root : CountMap.Named d.unknownRootTypes
  event : CountMap.Named d.unknownEventTypes
  response : CountMap.Named d.unknownResponseTypes

/-- What one record adds to the counters: no more than so much weight, and so many orphans. -/
structure CodexDiagnostics.Counts (weight orphans : ℕ) (d d' : CodexDiagnostics) : Prop where
  records : d'.records = d.records + 1
  weight : d'.weight ≤ d.weight + weight
  orphans : d'.orphanTurnRecords ≤ d.orphanTurnRecords + orphans
  named : d.Named → d'.Named

theorem total_noteType (known : List JsString) (type : JsString) (values : CountMap) :
    CountMap.total (noteType known type values) ≤ CountMap.total values + 1 := by
  have hincrement : CountMap.total (increment values type) = CountMap.total values + 1 := by
    unfold CountMap.total
    induction values with
    | nil => rfl
    | cons entry values ih =>
      unfold increment
      split
      · simp only [List.map_cons, List.sum_cons]
        omega
      · simp only [List.map_cons, List.sum_cons, ih]
        omega
  unfold noteType
  split
  · omega
  · omega

theorem named_noteType {known : List JsString} {type : JsString} {values : CountMap} (htype : type ≠ [])
    (h : CountMap.Named values) : CountMap.Named (noteType known type values) := by
  have hincrement : CountMap.Named (increment values type) := by
    induction values with
    | nil =>
      intro entry hentry
      rw [increment, List.mem_singleton] at hentry
      rw [hentry]
      exact ⟨htype, Nat.one_pos⟩
    | cons first values ih =>
      obtain ⟨hfirst, hrest⟩ := List.forall_mem_cons.1 h
      unfold increment
      split
      · exact List.forall_mem_cons.2 ⟨⟨hfirst.1, Nat.succ_pos _⟩, hrest⟩
      · exact List.forall_mem_cons.2 ⟨hfirst, ih hrest⟩
  unfold noteType
  split
  · exact h
  · exact hincrement

theorem CodexDiagnostics.Counts.mono {w o w' o' : ℕ} {d d' : CodexDiagnostics} (h : d.Counts w o d') (hw : w ≤ w')
    (ho : o ≤ o') : d.Counts w' o' d' :=
  ⟨h.records, h.weight.trans (by omega), h.orphans.trans (by omega), h.named⟩

theorem CodexDiagnostics.Counts.orphan {w : ℕ} {d d' : CodexDiagnostics} (h : d.Counts w 0 d') :
    d.Counts w 1 { d' with orphanTurnRecords := d'.orphanTurnRecords + 1 } :=
  ⟨h.records, h.weight, Nat.add_le_add_right h.orphans 1, fun hd =>
    ⟨(h.named hd).root, (h.named hd).event, (h.named hd).response⟩⟩

/-- The counters of a state are within its records. -/
structure CodexNormalizer.Counted (n : CodexNormalizer) : Prop where
  weight : n.diagnostics.weight ≤ n.diagnostics.records
  orphans : n.diagnostics.orphanTurnRecords ≤ n.diagnostics.records
  named : n.diagnostics.Named
  next : n.nextSequence ≤ n.diagnostics.records + 1

theorem CodexNormalizer.Counted.step {n n' : CodexNormalizer} (h : n.Counted)
    (hd : n.diagnostics.Counts 1 1 n'.diagnostics) (hnext : n'.nextSequence ≤ n.nextSequence + 1) : n'.Counted := by
  have hrecords := hd.records
  have hweight := hd.weight
  have horphans := hd.orphans
  have := h.weight
  have := h.orphans
  have := h.next
  exact ⟨by omega, by omega, hd.named h.named, by omega⟩

/-- The counters do not depend on the rest of the state. -/
theorem CodexNormalizer.Counted.of_eq {n n' : CodexNormalizer} (h : n.Counted) (hd : n'.diagnostics = n.diagnostics)
    (hnext : n'.nextSequence = n.nextSequence) : n'.Counted := by
  refine ⟨?_, ?_, ?_, ?_⟩
  · rw [hd]
    exact h.weight
  · rw [hd]
    exact h.orphans
  · rw [hd]
    exact h.named
  · rw [hd, hnext]
    exact h.next

/-! ## Moves -/

variable (E : Host)

/-- A session whose own id is the one of its native identity. -/
structure CanonicalSession.Ok (s : CanonicalSession) : Prop where
  native : s.nativeSessionId ≠ []
  derived : s.barbaroSessionId = createSessionId E.toHasher (js "codex") s.nativeSessionId

/-- What a record may do to the normalizer, with what it publishes. -/
inductive Move (n : CodexNormalizer) : CodexNormalizer × CodexNormalizationBatch → Prop
  | stays {d : CodexDiagnostics} : n.diagnostics.Counts 1 1 d → Move n ({ n with diagnostics := d }, {})
  | opens {d : CodexDiagnostics} {session : CanonicalSession} :
      n.diagnostics.Counts 1 1 d → n.session = none → session.Ok E →
      Move n ({ n with diagnostics := d, session := some session }, {})
  | starts {d : CodexDiagnostics} {session : CanonicalSession} {nativeTurnId startedAt : JsString}
      {source : CodexSourceLocation} :
      n.diagnostics.Counts 1 1 d → n.session = some session → nativeTurnId ≠ [] →
      Move n (startTurn E session nativeTurnId startedAt source { n with diagnostics := d }, {})
  | changes {d : CodexDiagnostics} {b b' : TurnBuilder} :
      n.diagnostics.Counts 1 1 d → n.get b.nativeTurnId = some b → b.Grows b' →
      Move n ({ n with diagnostics := d }.put b', {})
  | ends {d : CodexDiagnostics} {session : CanonicalSession} {b b' : TurnBuilder} {endedAt : JsString}
      {source : CodexSourceLocation} {outcome : TurnOutcome} {terminal : TurnTerminal} :
      n.diagnostics.Counts 1 1 d → n.session = some session → n.get b.nativeTurnId = some b → b.emitted = false →
      b.Grows b' → Move n (finishTurn E session endedAt source outcome terminal b' { n with diagnostics := d })

theorem namedField_ne {key : String} {v : Json} {s : JsString} (h : namedField key v = some s) : s ≠ [] := by
  unfold namedField at h
  simpa using (Option.filter_eq_some_iff.1 h).2

theorem decodeCodexEnvelope_ne {value : Json} {envelope : CodexEnvelope}
    (h : decodeCodexEnvelope E value = .ok envelope) : envelope.timestamp ≠ [] ∧ envelope.type ≠ [] := by
  unfold decodeCodexEnvelope at h
  split at h
  · cases h
  split at h
  · cases h
  next timestamp htime =>
  split at h
  · cases h
  next type htype =>
  split at h
  · cases h
  split at h
  · cases h
  cases h
  refine ⟨?_, ?_⟩
  · rintro rfl
    have hiso := (Option.filter_eq_some_iff.1 htime).2
    have hshape : Claude.isIsoShape [] = false := by decide
    simp [Claude.isIsoDateTime, hshape] at hiso
  · unfold stringField at htype
    simpa using (Option.filter_eq_some_iff.1 htype).2

theorem builderForPayload_get {payload : Json} {n : CodexNormalizer} {b : TurnBuilder}
    (h : builderForPayload payload n = some b) : n.get b.nativeTurnId = some b := by
  have hget : ∀ {id : JsString}, n.get id = some b → n.get b.nativeTurnId = some b := by
    intro id hid
    have hkey := (getBy_some hid).2
    rw [hkey]
    exact hid
  unfold builderForPayload at h
  dsimp only at h
  split at h
  · exact hget h
  · obtain ⟨id, -, hid⟩ := Option.bind_eq_some_iff.1 h
    exact hget hid

theorem acceptSessionMeta_move {n : CodexNormalizer} {d : CodexDiagnostics} (hd : n.diagnostics.Counts 0 0 d)
    (payload : Json) : Move E n (acceptSessionMeta E payload { n with diagnostics := d }, {}) := by
  unfold acceptSessionMeta
  split
  · exact .stays (hd.mono (Nat.zero_le 1) (Nat.zero_le 1))
  split
  · refine .stays ⟨hd.records, ?_, hd.orphans.trans (Nat.le_succ _), fun h => ?_⟩
    · have := hd.weight
      unfold CodexDiagnostics.weight at this ⊢
      dsimp only
      omega
    · exact ⟨(hd.named h).root, (hd.named h).event, (hd.named h).response⟩
  next hnone =>
  split
  · exact .stays (hd.mono (Nat.zero_le 1) (Nat.zero_le 1))
  next nativeSessionId hid =>
  refine .opens (hd.mono (Nat.zero_le 1) (Nat.zero_le 1)) (by simpa using hnone) ⟨?_, rfl⟩
  simpa using (Option.filter_eq_some_iff.1 hid).2

theorem acceptTurnEvent_move {n : CodexNormalizer} {d : CodexDiagnostics} (hd : n.diagnostics.Counts 1 0 d)
    (process : CodexProcess) (eventType : JsString) (payload : Json) {timestamp : JsString} (htime : timestamp ≠ [])
    (source : CodexSourceLocation) {session : CanonicalSession} (hsession : n.session = some session) {b : TurnBuilder}
    (hb : n.get b.nativeTurnId = some b) :
    Move E n (acceptTurnEvent E process eventType payload timestamp source session b { n with diagnostics := d }) := by
  have hd' := hd.mono (le_refl 1) (Nat.zero_le 1)
  unfold acceptTurnEvent
  dsimp only
  split
  · split
    · exact .stays hd'
    · next hlive =>
      exact .ends hd' hsession hb (Bool.eq_false_of_not_eq_true hlive) (completedBuilder_grows payload b)
  split
  · split
    · exact .stays hd'
    · next hlive => exact .ends hd' hsession hb (Bool.eq_false_of_not_eq_true hlive) (.refl b)
  · exact .changes hd' hb (eventBuilder_grows E _ eventType payload htime source b)

theorem acceptEvent_move {n : CodexNormalizer} {d : CodexDiagnostics} (hd : n.diagnostics.Counts 0 0 d)
    (process : CodexProcess) (payload : Json) {timestamp : JsString} (htime : timestamp ≠ [])
    (source : CodexSourceLocation) :
    Move E n (acceptEvent E process payload timestamp source { n with diagnostics := d }) := by
  unfold acceptEvent
  split
  · exact .stays (hd.mono (Nat.zero_le 1) (Nat.zero_le 1))
  next eventType htype =>
  have hd' : n.diagnostics.Counts 1 0
      { d with unknownEventTypes := noteType knownEventTypes eventType d.unknownEventTypes } := by
    refine ⟨hd.records, ?_, hd.orphans, fun h => ?_⟩
    · have := hd.weight
      have := total_noteType knownEventTypes eventType d.unknownEventTypes
      unfold CodexDiagnostics.weight at *
      dsimp only
      omega
    · have hname : eventType ≠ [] := by
        split at htype
        · exact namedField_ne htype
        · cases htype
      exact ⟨(hd.named h).root, named_noteType hname (hd.named h).event, (hd.named h).response⟩
  unfold acceptTypedEvent
  dsimp only
  have hd1 := hd'.mono (le_refl 1) (Nat.zero_le 1)
  split
  · split
    · next nativeTurnId session hid hsession => exact .starts hd1 hsession (namedField_ne hid)
    · exact .stays hd'.orphan
  split
  · exact .stays hd1
  split
  · next b session hb hsession =>
    exact acceptTurnEvent_move E hd' process eventType payload htime source hsession (builderForPayload_get hb)
  · exact .stays hd'.orphan

theorem acceptResponseItem_move {n : CodexNormalizer} {d : CodexDiagnostics} (hd : n.diagnostics.Counts 0 0 d)
    (payload : Json) (source : CodexSourceLocation) :
    Move E n (acceptResponseItem E payload source { n with diagnostics := d }, {}) := by
  unfold acceptResponseItem
  split
  · exact .stays (hd.mono (Nat.zero_le 1) (Nat.zero_le 1))
  next responseType htype =>
  have hd' : n.diagnostics.Counts 1 0
      { d with unknownResponseTypes := noteType knownResponseTypes responseType d.unknownResponseTypes } := by
    refine ⟨hd.records, ?_, hd.orphans, fun h => ?_⟩
    · have := hd.weight
      have := total_noteType knownResponseTypes responseType d.unknownResponseTypes
      unfold CodexDiagnostics.weight at *
      dsimp only
      omega
    · have hname : responseType ≠ [] := by
        split at htype
        · exact namedField_ne htype
        · cases htype
      exact ⟨(hd.named h).root, (hd.named h).event, named_noteType hname (hd.named h).response⟩
  unfold acceptTypedItem
  split
  · exact .stays hd'.orphan
  · next b hb =>
    exact .changes (hd'.mono (le_refl 1) (Nat.zero_le 1)) (builderForPayload_get hb)
      (responseBuilder_grows E responseType payload source b)

/-- **Every record** does one of these. -/
theorem acceptRecord_move (process : CodexProcess) (value : Json) (source : CodexSourceLocation) (n : CodexNormalizer) :
    Move E n (acceptRecord E process value source n) := by
  unfold acceptRecord
  dsimp only
  split
  · refine .stays ⟨rfl, ?_, Nat.le_succ _, fun h => ⟨h.root, h.event, h.response⟩⟩
    unfold CodexDiagnostics.weight
    dsimp only
    omega
  next envelope henvelope =>
  obtain ⟨htime, htype⟩ := decodeCodexEnvelope_ne E henvelope
  by_cases hknown : envelope.type ∈ knownRootTypes
  · have hd : n.diagnostics.Counts 0 0 { n.diagnostics with
        records := n.diagnostics.records + 1
        unknownRootTypes := noteType knownRootTypes envelope.type n.diagnostics.unknownRootTypes } := by
      unfold noteType
      rw [if_pos hknown]
      exact ⟨rfl, le_refl _, le_refl _, fun h => ⟨h.root, h.event, h.response⟩⟩
    split
    · exact acceptSessionMeta_move E hd envelope.payload
    split
    · exact acceptEvent_move E hd process envelope.payload htime source
    split
    · exact acceptResponseItem_move E hd envelope.payload source
    · exact .stays (hd.mono (Nat.zero_le 1) (Nat.zero_le 1))
  · -- a root type that is not known is none of the three that are read
    have hnot : ∀ text : String, js text ∈ knownRootTypes → envelope.type ≠ js text := fun text hmem heq =>
      hknown (heq ▸ hmem)
    rw [if_neg (hnot "session_meta" (by decide)), if_neg (hnot "event_msg" (by decide)),
      if_neg (hnot "response_item" (by decide))]
    refine .stays ⟨rfl, ?_, Nat.le_succ _, fun h => ⟨named_noteType htype h.root, h.event, h.response⟩⟩
    have := total_noteType knownRootTypes envelope.type n.diagnostics.unknownRootTypes
    unfold CodexDiagnostics.weight
    dsimp only
    omega

/-! ## States in order -/

/-- The turns of a state are those of its session, in the order in which they started. -/
structure CodexNormalizer.Ok (n : CodexNormalizer) : Prop where
  keys : (n.turns.map TurnBuilder.nativeTurnId).Nodup
  ordered : (n.turns.map TurnBuilder.sequence).Pairwise (· < ·)
  numbered : ∀ b ∈ n.turns, 1 ≤ b.sequence ∧ b.sequence < n.nextSequence
  builders : ∀ b ∈ n.turns, b.Ok
  session : ∀ session, n.session = some session → session.Ok E
  owned : ∀ b ∈ n.turns, ∃ session, n.session = some session ∧ b.agentId = session.actorId ∧
    b.barbaroTurnId = createTurnId E.toHasher (js "codex") session.nativeSessionId b.agentId b.nativeTurnId
  current : ∀ id, n.currentTurnId = some id → id ≠ [] ∧ (n.get id).isSome = true
  first : 1 ≤ n.nextSequence
  counted : n.Counted

theorem ok_init : CodexNormalizer.Ok E {} where
  keys := List.nodup_nil
  ordered := .nil
  numbered := fun b hb => absurd hb List.not_mem_nil
  builders := fun b hb => absurd hb List.not_mem_nil
  session := fun session h => nomatch h
  owned := fun b hb => absurd hb List.not_mem_nil
  current := fun id h => nomatch h
  first := le_refl 1
  counted := by
    refine ⟨Nat.zero_le _, Nat.zero_le _, ⟨?_, ?_, ?_⟩, le_refl 1⟩ <;>
      exact fun entry hentry => absurd hentry List.not_mem_nil

variable {E}

theorem CodexNormalizer.get_put {n : CodexNormalizer} {b : TurnBuilder} {id : JsString} :
    ((n.put b).get id).isSome = (n.get id).isSome := by
  have hiff : ∀ turns : List TurnBuilder, (getBy TurnBuilder.nativeTurnId id turns).isSome =
      decide (id ∈ turns.map TurnBuilder.nativeTurnId) := by
    intro turns
    rw [Bool.eq_iff_iff, decide_eq_true_iff, ← not_iff_not, ← getBy_none]
    simp
  unfold CodexNormalizer.get CodexNormalizer.put
  rw [hiff, hiff, keys_putBy]

/-- A turn that stays the same in the place of the one there. -/
theorem CodexNormalizer.Ok.put {n : CodexNormalizer} (h : n.Ok E) {b b' : TurnBuilder}
    (hb : n.get b.nativeTurnId = some b) (hsame : b.Same b') (hb' : b'.Ok) : (n.put b').Ok E := by
  obtain ⟨hmem, -⟩ := getBy_some hb
  have honly : ∀ v ∈ n.turns, v.nativeTurnId = b'.nativeTurnId → v = b := by
    intro v hv hkey
    exact getBy_only h.keys hv (hkey.trans hsame.nativeTurnId) hb
  refine ⟨?_, ?_, ?_, ?_, h.session, ?_, ?_, h.first, h.counted.of_eq rfl rfl⟩
  · exact (congrArg List.Nodup (keys_putBy b' n.turns)).mpr h.keys
  · have hseq : (n.put b').turns.map TurnBuilder.sequence = n.turns.map TurnBuilder.sequence := by
      apply map_putBy
      intro v hv hkey
      rw [honly v hv hkey, hsame.sequence]
    rw [hseq]
    exact h.ordered
  · intro v hv
    rcases mem_putBy hv with rfl | hv
    · rw [hsame.sequence]
      exact h.numbered b hmem
    · exact h.numbered v hv
  · intro v hv
    rcases mem_putBy hv with rfl | hv
    · exact hb'
    · exact h.builders v hv
  · intro v hv
    rcases mem_putBy hv with rfl | hv
    · obtain ⟨session, hsession, hagent, hturn⟩ := h.owned b hmem
      refine ⟨session, hsession, hsame.agentId.trans hagent, ?_⟩
      rw [hsame.barbaroTurnId, hsame.agentId, hsame.nativeTurnId]
      exact hturn
    · exact h.owned v hv
  · intro id hid
    rw [CodexNormalizer.get_put]
    exact h.current id hid

theorem CodexNormalizer.Ok.diagnostics {n : CodexNormalizer} (h : n.Ok E) {d : CodexDiagnostics}
    (hd : n.diagnostics.Counts 1 1 d) : CodexNormalizer.Ok E { n with diagnostics := d } :=
  ⟨h.keys, h.ordered, h.numbered, h.builders, h.session, h.owned, h.current, h.first,
    h.counted.step hd (Nat.le_succ _)⟩

theorem CodexNormalizer.Ok.start {n : CodexNormalizer} (h : n.Ok E) {d : CodexDiagnostics}
    (hd : n.diagnostics.Counts 1 1 d) {session : CanonicalSession} {nativeTurnId : JsString}
    (hsession : n.session = some session) (hid : nativeTurnId ≠ []) (startedAt : JsString)
    (source : CodexSourceLocation) :
    (startTurn E session nativeTurnId startedAt source { n with diagnostics := d }).Ok E := by
  have hok := h.diagnostics hd
  unfold startTurn
  split
  · next hthere =>
    refine ⟨hok.keys, hok.ordered, hok.numbered, hok.builders, hok.session, hok.owned, ?_, hok.first,
      hok.counted.of_eq rfl rfl⟩
    rintro id ⟨⟩
    exact ⟨hid, hthere⟩
  · next hnew =>
    have hnew : nativeTurnId ∉ n.turns.map TurnBuilder.nativeTurnId := by
      rw [← getBy_none]
      exact Option.not_isSome_iff_eq_none.1 hnew
    have hlast : ∀ b ∈ n.turns, b.sequence < n.nextSequence := fun b hb => (h.numbered b hb).2
    refine ⟨?_, ?_, ?_, ?_, hok.session, ?_, ?_, ?_, ?_⟩
    · rw [List.map_append, List.nodup_append]
      refine ⟨h.keys, List.nodup_singleton _, fun id hid id' hid' heq => ?_⟩
      rw [List.mem_singleton.1 hid'] at heq
      rw [heq] at hid
      exact hnew hid
    · rw [List.map_append, List.pairwise_append]
      refine ⟨h.ordered, List.pairwise_singleton _ _, fun s hs s' hs' => ?_⟩
      obtain ⟨b, hb, rfl⟩ := List.mem_map.1 hs
      rw [List.mem_singleton.1 hs']
      exact hlast b hb
    · intro b hb
      rcases List.mem_append.1 hb with hb | hb
      · exact ⟨(h.numbered b hb).1, (hlast b hb).trans (Nat.lt_succ_self _)⟩
      · rw [List.mem_singleton.1 hb]
        exact ⟨h.first, Nat.lt_succ_self _⟩
    · intro b hb
      rcases List.mem_append.1 hb with hb | hb
      · exact h.builders b hb
      · rw [List.mem_singleton.1 hb]
        exact ⟨List.nodup_nil, List.nodup_nil, fun s hs => absurd hs List.not_mem_nil, fun _ => rfl⟩
    · intro b hb
      rcases List.mem_append.1 hb with hb | hb
      · exact h.owned b hb
      · rw [List.mem_singleton.1 hb]
        exact ⟨session, hsession, rfl, rfl⟩
    · rintro id ⟨⟩
      refine ⟨hid, Option.isSome_iff_ne_none.2 fun hnone => ?_⟩
      have hout := getBy_none.1 hnone
      rw [List.map_append] at hout
      exact hout (List.mem_append_right _ (List.mem_singleton_self _))
    · exact Nat.le_add_left 1 _
    · exact h.counted.step hd (le_refl _)

/-- **One record** keeps the state in order. -/
theorem Move.ok {n : CodexNormalizer} {r : CodexNormalizer × CodexNormalizationBatch} (h : Move E n r) (hn : n.Ok E) :
    r.1.Ok E := by
  cases h with
  | stays hd => exact hn.diagnostics hd
  | opens hd hnone hsession =>
    have hok := hn.diagnostics hd
    -- without a session no turn has started
    have hempty : ∀ b ∈ n.turns, False := by
      intro b hb
      obtain ⟨session, hthere, -⟩ := hn.owned b hb
      rw [hnone] at hthere
      cases hthere
    refine ⟨hok.keys, hok.ordered, hok.numbered, hok.builders, ?_, fun b hb => (hempty b hb).elim, hok.current,
      hok.first, hok.counted.of_eq rfl rfl⟩
    rintro session ⟨⟩
    exact hsession
  | starts hd hsession hid => exact hn.start hd hsession hid _ _
  | changes hd hb hgrows => exact (hn.diagnostics hd).put hb hgrows.toSame (hgrows.ok (hn.builders _ (getBy_some hb).1))
  | @ends d session b b' endedAt source outcome terminal hd hsession hb hlive hgrows =>
    have hb' := settleCalls_ok E (hgrows.ok (hn.builders b (getBy_some hb).1)) session.barbaroSessionId
    have hflush : b'.Same (flushDeferredEvidence E session.barbaroSessionId b').2 := ⟨rfl, rfl, rfl, rfl⟩
    have hsame := hgrows.toSame.trans (hflush.trans (settleCalls_same E _).1)
    have hput := (hn.diagnostics hd).put hb hsame hb'
    refine ⟨hput.keys, hput.ordered, hput.numbered, hput.builders, hput.session, hput.owned, ?_, hput.first,
      hput.counted.of_eq rfl rfl⟩
    intro id hid
    simp only [finishTurn] at hid
    split at hid
    · cases hid
    · exact hput.current id hid

theorem Move.records {n : CodexNormalizer} {r : CodexNormalizer × CodexNormalizationBatch} (h : Move E n r) :
    r.1.diagnostics.records = n.diagnostics.records + 1 := by
  cases h with
  | stays hd => exact hd.records
  | opens hd => exact hd.records
  | starts hd =>
    unfold startTurn
    split
    · exact hd.records
    · exact hd.records
  | changes hd => exact hd.records
  | ends hd => exact hd.records

/-! ## Runs -/

variable (E)

/-- All records of a trace, each where it stands. -/
def acceptAll (process : CodexProcess) :
    List (Json × CodexSourceLocation) → CodexNormalizer → Except Failure (CodexNormalizer × List CodexNormalizationBatch) :=
  Resumable.run fun record => accept E process record.1 record.2

variable {E} {process : CodexProcess}

theorem accept_ok {value : Json} {source : CodexSourceLocation} {n : CodexNormalizer}
    {r : CodexNormalizer × CodexNormalizationBatch} :
    accept E process value source n = .ok r ↔ assertSource source = .ok () ∧ acceptRecord E process value source n = r := by
  unfold accept
  cases hsource : assertSource source with
  | error e =>
    constructor
    · intro h
      cases h
    · rintro ⟨h, -⟩
      cases h
  | ok u =>
    constructor
    · intro h
      cases h
      exact ⟨rfl, rfl⟩
    · rintro ⟨-, rfl⟩
      rfl

/-- What every record keeps holds after all of them. -/
theorem acceptAll_invariant {inv : CodexNormalizer → Prop} {good : CodexNormalizationBatch → Prop}
    (hinv : ∀ n r, inv n → Move E n r → inv r.1 ∧ good r.2) {records : List (Json × CodexSourceLocation)}
    {n n' : CodexNormalizer} {batches : List CodexNormalizationBatch} (hn : inv n)
    (h : acceptAll E process records n = .ok (n', batches)) : inv n' ∧ ∀ batch ∈ batches, good batch := by
  refine Resumable.run_invariant (fun record s s' o hs hstep => ?_) hn h
  obtain ⟨-, hrecord⟩ := accept_ok.1 hstep
  have hmove := acceptRecord_move E process record.1 record.2 s
  rw [hrecord] at hmove
  exact hinv s _ hs hmove

theorem acceptAll_ok {records : List (Json × CodexSourceLocation)} {n n' : CodexNormalizer}
    {batches : List CodexNormalizationBatch} (hn : n.Ok E) (h : acceptAll E process records n = .ok (n', batches)) :
    n'.Ok E :=
  (@acceptAll_invariant E process (CodexNormalizer.Ok E) (fun _ => True) (fun _ _ hs hmove => ⟨hmove.ok hs, trivial⟩) _ _ _ _
    hn h).1

theorem acceptAll_records {records : List (Json × CodexSourceLocation)} {n n' : CodexNormalizer}
    {batches : List CodexNormalizationBatch} (h : acceptAll E process records n = .ok (n', batches)) :
    n'.diagnostics.records = n.diagnostics.records + records.length := by
  refine @Resumable.run_count _ _ _ _ _ (fun n : CodexNormalizer => n.diagnostics.records) ?_ _ _ _ _ h
  rintro ⟨value, source⟩ s s' o hstep
  obtain ⟨-, hrecord⟩ := accept_ok.1 hstep
  have hmove := acceptRecord_move E process value source s
  rw [hrecord] at hmove
  exact hmove.records

/-! ## A trace of one turn -/

def tracedRecord (line : ℕ) (type : String) (payload : List (String × String)) : Json × CodexSourceLocation :=
  (.obj [(js "timestamp", .str (js "1970-01-01T00:00:00.000Z")), (js "type", .str (js type)),
    (js "payload", .obj (payload.map fun field => (js field.1, .str (js field.2))))],
    { traceId := js "t", lineNumber := line })

def tracedStart : List (Json × CodexSourceLocation) := [
  tracedRecord 1 "session_meta" [("id", "s")],
  tracedRecord 2 "event_msg" [("type", "task_started"), ("turn_id", "a")]]

/-- A turn with a subagent, up to its end. -/
def tracedEnd : List (Json × CodexSourceLocation) := [
  tracedRecord 3 "event_msg" [("type", "sub_agent_activity"), ("agent_thread_id", "c")],
  tracedRecord 4 "event_msg" [("type", "task_complete")]]

theorem tracedStart_run : ∃ n batches, acceptAll traceHost { directory := [] } tracedStart {} = .ok (n, batches) :=
  ⟨_, _, rfl⟩

theorem tracedTurn_run : ∃ n batches,
    acceptAll traceHost { directory := [] } (tracedStart ++ tracedEnd) {} = .ok (n, batches) :=
  ⟨_, _, rfl⟩

end Barbaro.Codex
