import Barbaro.Nudge.Claim

/-!
# What a claim does to the cursor

Inversion of `claimHookNudge` and `rollbackHookStopClaim`: which parts of the cursor each
of their steps can change.

* `claimHookNudge_ok`: a claim that succeeds, from its scan to the state it writes.
* `rollback_ok`: the same for a rollback.
-/

namespace Barbaro

/-- The parts of a cursor the turns of the recipient are kept in. -/
def NudgeCursorV3.withTurns (s : NudgeCursorV3) (generation : Option ℕ)
    (informed : Option NudgeDeliveryTurn) (delivery : NudgeDelivery) : NudgeCursorV3 :=
  { s with
    claudeTurnGeneration := generation
    reads := { s.reads with informedTurn := informed }
    delivery }

section
variable {E : Host} {epoch : MembershipEpoch E}

theorem withHookCursor_ok {α : Type} {files : List BarbaroFeedFile} {current : Option NudgeCursor}
    {operation : ScopedScan E → Except Failure (HookCursorUpdate α)} {u : HookCursorUpdate α} :
    withHookCursor epoch files current operation = .ok u ↔
      ∃ scan, scanUnread epoch none current files = .ok scan ∧ operation scan = .ok u := by
  simp only [withHookCursor, Outcome.bind_ok]

theorem claudeGeneration_ok {s : NudgeCursorV3} {g : ℕ} (h : claudeGeneration s = .ok g) :
    s.claudeTurnGeneration = some g := by
  rw [claudeGeneration] at h
  split at h
  · next n hn => cases h; exact hn
  · cases h

/-- Establishing the turn: nothing changes, or the next generation of Claude begins. -/
theorem establishClaimTurn_ok {cursor : VirtualCursor} {turn : HookNudgeTurn} {s : NudgeCursorV3}
    (h : establishClaimTurn cursor turn = .ok s) :
    s = cursor.state ∨
      ∃ g, cursor.state.claudeTurnGeneration = some g ∧ g + 1 ≤ maxSafeInteger ∧ cursor.existed = true ∧
        turn ≠ .claudeCurrent ∧ turn.kind = .claude ∧ s = nextGeneration cursor turn g := by
  cases turn with
  | codex turnId => cases h; exact .inl rfl
  | claudeBegin =>
    simp only [establishClaimTurn, Outcome.bind_ok] at h
    obtain ⟨g, hg, h⟩ := h
    split at h
    · cases h; exact .inl rfl
    · next hc =>
      simp only [Outcome.guard_ok, Except.ok.injEq, not_lt, gt_iff_lt] at h
      simp only [reduceCtorEq, false_or, Bool.not_eq_true', Bool.not_eq_false] at hc
      exact .inr ⟨g, claudeGeneration_ok hg, h.1, hc, by simp, rfl, h.2.symm⟩
  | claudeCurrent =>
    simp only [establishClaimTurn, Outcome.bind_ok, true_or, if_true] at h
    obtain ⟨g, hg, h⟩ := h
    cases h
    exact .inl rfl
  | claudeQueued workstreamId membershipFrom =>
    simp only [establishClaimTurn, Outcome.bind_ok] at h
    obtain ⟨g, hg, h⟩ := h
    split at h
    · cases h; exact .inl rfl
    · next hc =>
      simp only [Outcome.guard_ok, Except.ok.injEq, not_lt, gt_iff_lt] at h
      simp only [reduceCtorEq, false_or, Bool.not_eq_true', Bool.not_eq_false] at hc
      exact .inr ⟨g, claudeGeneration_ok hg, h.1, hc, by simp, rfl, h.2.symm⟩

/-- Establishing the turn changes only the turns, and announces nothing. -/
theorem establishClaimTurn_turns {cursor : VirtualCursor} {turn : HookNudgeTurn} {s : NudgeCursorV3}
    (h : establishClaimTurn cursor turn = .ok s) :
    ∃ g i l, s = cursor.state.withTurns g i { cursor.state.delivery with lastTurn := l } := by
  rcases establishClaimTurn_ok h with rfl | ⟨g, -, -, -, -, -, rfl⟩
  · exact ⟨_, _, _, rfl⟩
  · refine ⟨some (g + 1), (nextGeneration cursor turn g).reads.informedTurn,
      (nextGeneration cursor turn g).delivery.lastTurn, ?_⟩
    simp only [nextGeneration, NudgeCursorV3.withTurns]
    split
    · split
      · rfl
      · rfl
    · split
      · rfl
      · rfl

/-- The state a claim starts from. -/
theorem claimState_ok {scan : ScopedScan E} {options : HookNudgeClaimOptions}
    {start : NudgeCursorV3} {turn : NudgeDeliveryTurn} (h : claimState scan options = .ok (start, turn)) :
    ∃ s, establishClaimTurn scan.cursor options.turn = .ok s ∧
      currentDeliveryTurn s options.turn = .ok turn ∧
      start = match scan.cursor.legacyMarkers with
        | some markers => { s with
            delivery := legacyDelivery markers scan.ready.unreadCount options.marker turn }
        | none => s := by
  simp only [claimState, Outcome.bind_ok] at h
  obtain ⟨s, hs, t, ht, h⟩ := h
  refine ⟨s, hs, ?_⟩
  cases hl : scan.cursor.legacyMarkers with
  | none =>
    simp only [hl, Outcome.pure_ok, Prod.mk.injEq] at h
    exact ⟨h.2 ▸ ht, h.1.symm⟩
  | some markers =>
    simp only [hl, Outcome.pure_ok, Prod.mk.injEq] at h
    obtain ⟨rfl, rfl⟩ := h
    exact ⟨ht, rfl⟩

theorem claimState_turns {scan : ScopedScan E} {options : HookNudgeClaimOptions}
    {start : NudgeCursorV3} {turn : NudgeDeliveryTurn} (h : claimState scan options = .ok (start, turn)) :
    ∃ g i d, start = scan.cursor.state.withTurns g i d := by
  obtain ⟨s, hs, -, rfl⟩ := claimState_ok h
  obtain ⟨g, i, l, rfl⟩ := establishClaimTurn_turns hs
  split
  · exact ⟨g, i, _, rfl⟩
  · exact ⟨g, i, _, rfl⟩

theorem retireSuppression_turns (options : HookNudgeClaimOptions) (s : NudgeCursorV3) (same : Bool) :
    ∃ i l, retireSuppression options s same =
      s.withTurns s.claudeTurnGeneration i { s.delivery with lastTurn := l } := by
  rw [retireSuppression]
  split
  · exact ⟨none, none, rfl⟩
  · exact ⟨s.reads.informedTurn, s.delivery.lastTurn, rfl⟩

/-- **A claim that succeeds**: the state it starts from, the decision, and what it writes. -/
structure ClaimMade (epoch : MembershipEpoch E) (options : HookNudgeClaimOptions) (scan : ScopedScan E)
    (start state : NudgeCursorV3) (turn : NudgeDeliveryTurn) (timestamp : JsString)
    (u : HookCursorUpdate (HookNudgeClaim E)) : Prop where
  turn_ok : validateHookTurn E epoch.provider options.turn = .ok ()
  continuation : options.stopContinuation = true → options.marker = .stop
  time : E.isoString options.now = some timestamp
  start_ok : claimState scan options = .ok (start, turn)
  state_eq : state = retireSuppression options start (sameTurnDelivery start turn)
  update : (options.marker = .stop ∧ state.markers.stop = some scan.cursor.state.cursorRevision ∧
      u.state = writeIfChanged scan state timestamp ∧ u.result.claimed = false) ∨
    (¬ (options.marker = .stop ∧ state.markers.stop = some scan.cursor.state.cursorRevision) ∧
      u.result.claimed =
        isClaimed options scan.ready.unreadCount state (sameTurnDelivery start turn) ∧
      u.state = writeIfChanged scan (settleClaim options scan state turn u.result.claimed) timestamp)

theorem claimHookNudge_ok {files : List BarbaroFeedFile} {current : Option NudgeCursor}
    {options : HookNudgeClaimOptions} {u : HookCursorUpdate (HookNudgeClaim E)}
    (h : claimHookNudge epoch files current options = .ok u) :
    ∃ scan start state turn timestamp, scanUnread epoch none current files = .ok scan ∧
      ClaimMade epoch options scan start state turn timestamp u := by
  simp only [claimHookNudge, Outcome.bind_ok, Outcome.exists_unit, Outcome.guard_ok,
    withHookCursor_ok] at h
  obtain ⟨hturn, hcont, timestamp, htime, scan, hscan, h⟩ := h
  simp only [claimScan, Outcome.bind_ok, Prod.exists] at h
  obtain ⟨start, turn, hstart, h⟩ := h
  have htime : E.isoString options.now = some timestamp := by
    rw [checkedTimestamp] at htime
    split at htime
    · next s hs => cases htime; exact hs
    · cases htime
  have hcont : options.stopContinuation = true → options.marker = .stop := by
    intro hc
    by_contra hm
    exact hcont ⟨hc, .inr hm⟩
  refine ⟨scan, start, _, turn, timestamp, hscan, hturn, hcont, htime, hstart, rfl, ?_⟩
  split at h
  · next hs =>
    simp only [Outcome.pure_ok] at h
    subst h
    exact .inl ⟨hs.1, hs.2, rfl, rfl⟩
  · next hs =>
    simp only [Outcome.pure_ok] at h
    subst h
    exact .inr ⟨hs, rfl, rfl⟩

/-- What is written is the new state with its time. -/
theorem writeIfChanged_some {scan : ScopedScan E} {next s : NudgeCursorV3} {timestamp : JsString}
    (h : writeIfChanged scan next timestamp = some s) : s = { next with updatedAt := timestamp } := by
  rw [writeIfChanged] at h
  split at h
  · exact (Option.some.inj h).symm
  · cases h

/-- What is not written has not changed. -/
theorem writeIfChanged_none {scan : ScopedScan E} {next : NudgeCursorV3} {timestamp : JsString}
    (h : writeIfChanged scan next timestamp = none) : scan.cursor.reset = false ∧
      scan.cursor.existed = true ∧ scan.cursor.state = { next with updatedAt := scan.cursor.state.updatedAt } := by
  rw [writeIfChanged] at h
  split at h
  · cases h
  · next hc =>
    simp only [Bool.or_eq_true, Bool.not_eq_true', not_or, Bool.not_eq_true, Bool.not_eq_false,
      sameCursorPayload, beq_iff_eq] at hc
    exact ⟨hc.1.1, hc.1.2, hc.2⟩

/-- The decision moves the positions over the prefix of the scan, and writes nothing else
but the announcement. -/
theorem settleClaim_positions (options : HookNudgeClaimOptions) (scan : ScopedScan E)
    (s : NudgeCursorV3) (turn : NudgeDeliveryTurn) (claimed : Bool) :
    (settleClaim options scan s turn claimed).feedCursors = scan.coveredFeedCursors ∧
      (settleClaim options scan s turn claimed).reads.coverage =
        (collapseReadCursor s scan).reads.coverage := by
  rw [settleClaim]
  split
  · exact ⟨rfl, rfl⟩
  · split
    · exact ⟨rfl, rfl⟩
    · exact ⟨rfl, rfl⟩

/-- The positions and the coverage a claim writes. -/
theorem ClaimMade.positions {options : HookNudgeClaimOptions} {scan : ScopedScan E}
    {start state : NudgeCursorV3} {turn : NudgeDeliveryTurn} {timestamp : JsString}
    {u : HookCursorUpdate (HookNudgeClaim E)}
    (h : ClaimMade epoch options scan start state turn timestamp u) {s : NudgeCursorV3}
    (hs : u.state = some s) :
    (s.feedCursors = scan.cursor.state.feedCursors ∧
        s.reads.coverage = scan.cursor.state.reads.coverage) ∨
      (s.feedCursors = (collapseReadCursor scan.cursor.state scan).feedCursors ∧
        s.reads.coverage = (collapseReadCursor scan.cursor.state scan).reads.coverage) := by
  obtain ⟨g, i, d, hstart⟩ := claimState_turns h.start_ok
  obtain ⟨i', l, hstate⟩ := retireSuppression_turns options start (sameTurnDelivery start turn)
  have hfeeds : state.feedCursors = scan.cursor.state.feedCursors := by
    rw [h.state_eq, hstate, hstart]; rfl
  have hcoverage : state.reads.coverage = scan.cursor.state.reads.coverage := by
    rw [h.state_eq, hstate, hstart]; rfl
  rcases h.update with ⟨-, -, hu, -⟩ | ⟨-, -, hu⟩
  · rw [hu] at hs
    rw [writeIfChanged_some hs]
    exact .inl ⟨hfeeds, hcoverage⟩
  · rw [hu] at hs
    rw [writeIfChanged_some hs]
    obtain ⟨h1, h2⟩ := settleClaim_positions options scan state turn u.result.claimed
    refine .inr ⟨h1, h2.trans ?_⟩
    simp only [collapseReadCursor, hcoverage]

/-- **A rollback that succeeds** does nothing, or takes the Stop latch back. -/
theorem rollback_ok {current : Option NudgeCursor} {receipt : HookStopClaimRollback} {now : ℤ}
    {u : HookCursorUpdate Bool} (h : rollbackHookStopClaim E current receipt now = .ok u) :
    u.state = none ∨ ∃ c timestamp, current = some (.v3 c) ∧ E.isoString now = some timestamp ∧
      rollbackApplies receipt c = true ∧ u.state = some { c with
        markers := {}
        delivery := if c.delivery = receipt.claimed then receipt.before else c.delivery
        updatedAt := timestamp } := by
  simp only [rollbackHookStopClaim, Outcome.bind_ok, Outcome.exists_unit] at h
  obtain ⟨-, timestamp, htime, h⟩ := h
  have htime : E.isoString now = some timestamp := by
    rw [checkedTimestamp] at htime
    split at htime
    · next s hs => cases htime; exact hs
    · cases htime
  split at h
  · next c =>
    split at h
    · next ha =>
      simp only [Outcome.pure_ok] at h
      subst h
      exact .inr ⟨c, timestamp, rfl, htime, ha, rfl⟩
    · simp only [Outcome.pure_ok] at h
      subst h
      exact .inl rfl
  · simp only [Outcome.pure_ok] at h
    subst h
    exact .inl rfl

end

end Barbaro
