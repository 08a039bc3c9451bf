import Barbaro.Providers.CodexState

/-!
# A normalizer that goes on from a snapshot

The snapshot of a state keeps the turns that have not ended. From it the normalizer goes on with those
turns alone, if the session has an actor and the current turn is one of them.

* `CodexNormalizer.live`: what of a state goes on.
* `restore_snapshot`: which states can be restored, and what is restored of them.
-/

namespace Barbaro.Codex

open KeyedMap

variable {E : Host} {process : CodexProcess}

/-- The turn has not ended. -/
def TurnBuilder.isLive (b : TurnBuilder) : Bool := !b.emitted

theorem TurnBuilder.isLive_iff {b : TurnBuilder} : b.isLive = true ↔ b.emitted = false := by
  simp [TurnBuilder.isLive]

theorem TurnBuilder.isLive_false {b : TurnBuilder} : b.isLive = false ↔ b.emitted = true := by
  simp [TurnBuilder.isLive]

/-- A state without its ended turns, with the types it does not know in order. -/
def CodexNormalizer.live (n : CodexNormalizer) : CodexNormalizer :=
  { n with turns := n.turns.filter TurnBuilder.isLive, diagnostics := n.diagnostics.sorted }

/-- The session has an actor, and the current turn has not ended. -/
structure CodexNormalizer.GoesOn (n : CodexNormalizer) : Prop where
  actor : ∀ session, n.session = some session → session.actorId ≠ []
  current : ∀ id, n.currentTurnId = some id → ∃ b, n.get id = some b ∧ b.emitted = false

/-! ## Counters -/

theorem le_total {values : CountMap} {entry : JsString × ℕ} (h : entry ∈ values) : entry.2 ≤ CountMap.total values := by
  unfold CountMap.total
  induction values with
  | nil => cases h
  | cons first values ih =>
    rw [List.map_cons, List.sum_cons]
    rcases List.mem_cons.1 h with rfl | h
    · exact Nat.le_add_right _ _
    · exact (ih h).trans (Nat.le_add_left _ _)

theorem isSafe_of_le {n : ℕ} (h : n ≤ maxSafeInteger) : isSafe n = true := by
  unfold isSafe
  exact decide_eq_true (by omega)

theorem restoreCountMap_sorted {values : CountMap} (hnamed : CountMap.Named values)
    (hsafe : CountMap.total values ≤ maxSafeInteger) : restoreCountMap (mapToSortedRecord values) = .ok (mapToSortedRecord values) := by
  unfold restoreCountMap
  apply if_pos
  rw [List.all_eq_true]
  intro entry hentry
  have hmem : entry ∈ values := List.mem_mergeSort.1 hentry
  obtain ⟨hname, hpos⟩ := hnamed entry hmem
  rw [isSafe_of_le ((le_total hmem).trans hsafe)]
  simp [hname, hpos]

theorem CodexNormalizer.Counted.restoreDiagnostics {n : CodexNormalizer} (h : n.Counted)
    (hsafe : n.diagnostics.records ≤ maxSafeInteger) :
    Codex.restoreDiagnostics n.diagnostics.sorted = .ok n.diagnostics.sorted := by
  have hweight := h.weight
  have horphans := h.orphans
  unfold CodexDiagnostics.weight at hweight
  have hroot := restoreCountMap_sorted h.named.root (by omega)
  have hevent := restoreCountMap_sorted h.named.event (by omega)
  have hresponse := restoreCountMap_sorted h.named.response (by omega)
  have h1 := isSafe_of_le hsafe
  have h2 : isSafe n.diagnostics.invalidEnvelopes = true := isSafe_of_le (by omega)
  have h3 : isSafe n.diagnostics.repeatedSessionMeta = true := isSafe_of_le (by omega)
  have h4 : isSafe n.diagnostics.orphanTurnRecords = true := isSafe_of_le (by omega)
  unfold Codex.restoreDiagnostics CodexDiagnostics.sorted
  simp only [List.find?_cons, List.find?_nil, h1, h2, h3, h4, hroot, hevent, hresponse]
  rfl

/-! ## Turns -/

theorem CodexNormalizer.Ok.live_sorted {n : CodexNormalizer} (h : n.Ok E) :
    (n.turns.filter TurnBuilder.isLive).mergeSort (fun a b => decide (a.sequence ≤ b.sequence)) =
      n.turns.filter TurnBuilder.isLive := by
  apply List.mergeSort_of_pairwise
  apply List.Pairwise.filter
  exact (List.pairwise_map.1 h.ordered).imp fun hlt => decide_eq_true (Nat.le_of_lt hlt)

theorem mapM_restoreTurn {session : Option CanonicalSession} {turns : List TurnBuilder}
    (h : ∀ b ∈ turns, restoreTurn E session b = .ok b) : turns.mapM (restoreTurn E session) = .ok turns := by
  induction turns with
  | nil => rfl
  | cons b turns ih =>
    obtain ⟨hb, hturns⟩ := List.forall_mem_cons.1 h
    rw [List.mapM_cons, hb]
    change turns.mapM (restoreTurn E session) >>= _ = _
    rw [ih hturns]
    rfl

theorem CodexNormalizer.Ok.restoreTurn {n : CodexNormalizer} (h : n.Ok E) (hsafe : n.nextSequence ≤ maxSafeInteger)
    {b : TurnBuilder} (hb : b ∈ n.turns) (hlive : b.isLive = true) : Codex.restoreTurn E n.session b = .ok b := by
  obtain ⟨hpos, hnext⟩ := h.numbered b hb
  obtain ⟨session, hsession, hagent, hturn⟩ := h.owned b hb
  have hok := h.builders b hb
  have hsequence : (decide (b.sequence < 1) || !isSafe b.sequence) = false := by
    rw [isSafe_of_le (by omega), decide_eq_false (by omega)]
    rfl
  have hemitted := TurnBuilder.isLive_iff.1 hlive
  unfold Codex.restoreTurn
  rw [hsequence, hsession]
  simp only [Bool.false_eq_true, if_false]
  rw [if_neg (not_not.2 hagent), if_neg (not_not.2 hturn), mapBy_eq hok.calls, mapBy_eq hok.subagents, ← hemitted]

/-! ## Which states go on -/

theorem restoreSession_iff {session : CanonicalSession} (h : session.Ok E) {restored : Option CanonicalSession} :
    restoreSession E (some session) = .ok restored ↔ session.actorId ≠ [] ∧ restored = some session := by
  rw [restoreSession]
  by_cases hactor : session.actorId = []
  · rw [if_pos (.inr hactor)]
    constructor
    · intro hfail
      cases hfail
    · exact fun hon => absurd hactor hon.1
  · rw [if_neg (not_or.2 ⟨h.native, hactor⟩), if_neg (not_not.2 h.derived)]
    constructor
    · rintro ⟨⟩
      exact ⟨hactor, rfl⟩
    · rintro ⟨-, rfl⟩
      rfl

theorem CodexNormalizer.Ok.live_get {n : CodexNormalizer} (h : n.Ok E) (id : JsString) :
    n.live.get id = (n.get id).filter TurnBuilder.isLive :=
  getBy_filter h.keys

theorem CodexNormalizer.Ok.restoreCurrent_iff {n m : CodexNormalizer} (h : n.Ok E) :
    restoreCurrent n.live = .ok m ↔
      (∀ id, n.currentTurnId = some id → ∃ b, n.get id = some b ∧ b.emitted = false) ∧ m = n.live := by
  have hcurrent : n.live.currentTurnId = n.currentTurnId := rfl
  unfold restoreCurrent
  rw [hcurrent]
  cases hid : n.currentTurnId with
  | none =>
    constructor
    · rintro ⟨⟩
      exact ⟨fun id hid => (by cases hid), rfl⟩
    · rintro ⟨-, rfl⟩
      rfl
  | some id =>
    obtain ⟨b, hb⟩ := Option.isSome_iff_exists.1 (h.current id hid).2
    rw [Option.any_some, h.live_get, hb, Option.filter_some]
    unfold TurnBuilder.isLive
    cases hemitted : b.emitted with
    | false =>
      constructor
      · rintro ⟨⟩
        refine ⟨fun id' hid' => ?_, rfl⟩
        cases hid'
        exact ⟨b, hb, hemitted⟩
      · rintro ⟨-, rfl⟩
        rfl
    | true =>
      constructor
      · intro hfail
        cases hfail
      · rintro ⟨hlive, -⟩
        obtain ⟨b', hb', hfalse⟩ := hlive id rfl
        rw [hb] at hb'
        cases hb'
        rw [hemitted] at hfalse
        cases hfalse

/-- What is restored once the session is. -/
theorem CodexNormalizer.Ok.restore_eq {n : CodexNormalizer} (h : n.Ok E) (hsafe : n.diagnostics.records < maxSafeInteger) :
    restore E (snapshot n) = restoreSession E n.session >>= fun session =>
      (n.turns.filter TurnBuilder.isLive).mapM (Codex.restoreTurn E session) >>= fun turns =>
        restoreCurrent { n with
          turns := mapBy TurnBuilder.nativeTurnId turns
          diagnostics := n.diagnostics.sorted
          session := session } := by
  have hfirst : (decide ((snapshot n).nextSequence < 1) || !isSafe (snapshot n).nextSequence) = false := by
    change (decide (n.nextSequence < 1) || !isSafe n.nextSequence) = false
    have := h.first
    rw [isSafe_of_le (h.counted.next.trans hsafe), decide_eq_false (by omega)]
    rfl
  have hturns : (snapshot n).turns = n.turns.filter TurnBuilder.isLive := h.live_sorted
  have hdiagnostics : Codex.restoreDiagnostics (snapshot n).diagnostics = .ok n.diagnostics.sorted :=
    h.counted.restoreDiagnostics (Nat.le_of_lt hsafe)
  have hcurrent : (snapshot n).currentTurnId = n.currentTurnId := by
    change n.currentTurnId.filter (· ≠ []) = n.currentTurnId
    cases hid : n.currentTurnId with
    | none => rfl
    | some id =>
      apply Option.filter_eq_some_iff.2
      exact ⟨rfl, decide_eq_true (h.current id hid).1⟩
  unfold restore
  rw [hfirst, hturns, hcurrent, hdiagnostics]
  rfl

/-- **A snapshot is restored** if and only if the state goes on, and then what is restored is the part of the
state that goes on. -/
theorem CodexNormalizer.Ok.restore_iff {n m : CodexNormalizer} (h : n.Ok E)
    (hsafe : n.diagnostics.records < maxSafeInteger) : restore E (snapshot n) = .ok m ↔ n.GoesOn ∧ m = n.live := by
  have hmapM : (n.turns.filter TurnBuilder.isLive).mapM (Codex.restoreTurn E n.session) =
      .ok (n.turns.filter TurnBuilder.isLive) :=
    mapM_restoreTurn fun b hb =>
      h.restoreTurn (h.counted.next.trans hsafe) (List.mem_filter.1 hb).1 (List.mem_filter.1 hb).2
  have hkeys : ((n.turns.filter TurnBuilder.isLive).map TurnBuilder.nativeTurnId).Nodup :=
    h.keys.sublist (List.filter_sublist.map _)
  have hsession : restoreSession E n.session = .ok n.session → (restore E (snapshot n) = .ok m ↔
      (∀ id, n.currentTurnId = some id → ∃ b, n.get id = some b ∧ b.emitted = false) ∧ m = n.live) := by
    intro hsession
    rw [h.restore_eq hsafe, hsession, ← h.restoreCurrent_iff]
    change ((n.turns.filter TurnBuilder.isLive).mapM (Codex.restoreTurn E n.session) >>= _) = _ ↔ _
    rw [hmapM]
    change restoreCurrent { n with
      turns := mapBy TurnBuilder.nativeTurnId (n.turns.filter TurnBuilder.isLive)
      diagnostics := n.diagnostics.sorted } = .ok m ↔ _
    rw [mapBy_eq hkeys]
    rfl
  cases hs : n.session with
  | none =>
    rw [hsession (by rw [hs]; rfl)]
    constructor
    · rintro ⟨hcurrent, rfl⟩
      refine ⟨⟨fun session hsome => ?_, hcurrent⟩, rfl⟩
      rw [hs] at hsome
      cases hsome
    · rintro ⟨hon, rfl⟩
      exact ⟨hon.current, rfl⟩
  | some session =>
    have hok := h.session session hs
    by_cases hactor : session.actorId = []
    · constructor
      · intro hrestore
        rw [h.restore_eq hsafe, hs] at hrestore
        cases hrestored : restoreSession E (some session) with
        | error e =>
          rw [hrestored] at hrestore
          cases hrestore
        | ok restored => exact absurd hactor ((restoreSession_iff hok).1 hrestored).1
      · exact fun hon => absurd hactor (hon.1.actor session hs)
    · rw [hsession (by rw [hs]; exact (restoreSession_iff hok).2 ⟨hactor, rfl⟩)]
      constructor
      · rintro ⟨hcurrent, rfl⟩
        refine ⟨⟨fun session' hsome => ?_, hcurrent⟩, rfl⟩
        rw [hs] at hsome
        cases hsome
        exact hactor
      · rintro ⟨hon, rfl⟩
        exact ⟨hon.current, rfl⟩

/-- **What every run leaves can be restored** if and only if it goes on, and then the part that goes on is. -/
theorem restore_snapshot {records : List (Json × CodexSourceLocation)} {n m : CodexNormalizer}
    {batches : List CodexNormalizationBatch} (h : acceptAll E process records {} = .ok (n, batches))
    (hsafe : records.length < maxSafeInteger) : restore E (snapshot n) = .ok m ↔ n.GoesOn ∧ m = n.live := by
  have hrecords : n.diagnostics.records = 0 + records.length := acceptAll_records h
  exact (acceptAll_ok (ok_init E) h).restore_iff (by omega)

theorem restore_snapshot_started : ∃ n batches, acceptAll traceHost { directory := [] } tracedStart {} = .ok (n, batches) ∧
    restore traceHost (snapshot n) = .ok n.live := by
  obtain ⟨n, batches, hrun⟩ := tracedStart_run
  refine ⟨n, batches, hrun, (restore_snapshot hrun (by decide)).2 ⟨?_, rfl⟩⟩
  cases hrun
  refine ⟨?_, ?_⟩
  · rintro session ⟨⟩
    decide
  · rintro id ⟨⟩
    exact ⟨_, rfl, rfl⟩

end Barbaro.Codex
