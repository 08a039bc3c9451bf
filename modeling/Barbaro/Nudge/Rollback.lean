import Barbaro.Nudge.Ledger
import Barbaro.Nudge.StoredRun

/-!
# Taking a Stop claim back

A Stop claim that was granted is taken back when its continuation could not be
persisted. Other hooks may have run transactions on the cursor meanwhile.

* `stopClaim_granted`: what a granted Stop claim leaves, and what its receipt keeps.
* `transaction_step`: what any transaction does to a latched cursor, as long as the
  revision stays.
* `After.state`: so it is over any number of them.
* `rollback_inverse`: the rollback restores what was there before the claim exactly if no
  transaction changed the ledger, and keeps the ledger if one did.
-/

namespace Barbaro

/-! ## The latch -/

/-- The cursor the receipt was given for, with its Stop latch still set. -/
structure Latched (r : HookStopClaimRollback) (c : NudgeCursorV3) : Prop where
  workstreamId : c.workstreamId = r.workstreamId
  membershipFrom : c.membershipFrom = r.membershipFrom
  cursorRevision : c.cursorRevision = r.cursorRevision
  stop : c.markers.stop = some r.cursorRevision

theorem rollbackApplies_iff {r : HookStopClaimRollback} {c : NudgeCursorV3} :
    rollbackApplies r c = true ↔ Latched r c := by
  simp only [rollbackApplies, Bool.and_eq_true, beq_iff_eq]
  constructor
  · rintro ⟨⟨⟨h1, h2⟩, h3⟩, h4⟩
    exact ⟨h1, h2, h3, h4⟩
  · rintro ⟨h1, h2, h3, h4⟩
    exact ⟨⟨⟨h1, h2⟩, h3⟩, h4⟩

section
variable {E : Host} {epoch : MembershipEpoch E}

theorem markers_ext {m m' : NudgeMarkersV2} (h : m.stop = m'.stop) : m = m' := by
  cases m
  cases m'
  simp only at h
  rw [h]

/-- A turn that was not told yet is not one a marker was carried to: the delivery a claim
starts from is the one of the cursor. -/
theorem claimState_delivery {scan : ScopedScan E} {options : HookNudgeClaimOptions}
    {start : NudgeCursorV3} {turn : NudgeDeliveryTurn} (h : claimState scan options = .ok (start, turn))
    (hlegacy : scan.cursor.legacyMarkers.isSome = true →
      scan.cursor.state.delivery = { highestUnreadCount := 0 })
    (hstop : options.marker = .stop) (hcount : 0 < scan.ready.unreadCount)
    (hnew : start.delivery.lastTurn ≠ some turn) : start.delivery = scan.cursor.state.delivery := by
  obtain ⟨s, hs, hturn, rfl⟩ := claimState_ok h
  cases hm : scan.cursor.legacyMarkers with
  | some markers =>
    simp only [hm] at hnew ⊢
    rw [hlegacy (by rw [hm]; rfl)]
    have hnone : markers.any = false := by
      by_contra hany
      refine hnew ?_
      simp [legacyDelivery, hany, hstop, hcount]
    simp [legacyDelivery, hnone]
  | none =>
    simp only [hm] at hnew ⊢
    rcases establishClaimTurn_ok hs with rfl | ⟨g, -, -, -, -, hkind, rfl⟩
    · rfl
    · have hgen : turn = .claude (g + 1) := by
        cases ht : options.turn with
        | codex turnId => rw [ht] at hkind; cases hkind
        | _ =>
          rw [ht] at hturn
          simp only [currentDeliveryTurn, claudeGeneration, nextGeneration, Outcome.ok_bind,
            Outcome.pure_ok] at hturn
          exact hturn.symm
      subst hgen
      simp only [nextGeneration] at hnew ⊢
      split at hnew
      · exact absurd rfl hnew
      · next hc => rw [if_neg hc]

/-- The state after a granted Stop claim. -/
theorem settleClaim_granted {options : HookNudgeClaimOptions} {scan : ScopedScan E}
    (state : NudgeCursorV3) (turn : NudgeDeliveryTurn) (hstop : options.marker = .stop)
    (hcount : 0 < scan.ready.unreadCount) :
    settleClaim options scan state turn true =
      { collapseReadCursor state scan with
        markers := { stop := some scan.cursor.state.cursorRevision }
        delivery := {
          highestUnreadCount := max state.delivery.highestUnreadCount scan.ready.unreadCount
          lastTurn := some turn } } := by
  have hzero : scan.ready.unreadCount ≠ 0 := by omega
  simp only [settleClaim, hzero, false_and, if_false, if_true, hstop]
  rfl

/-- **A Stop claim that was granted** latched the cursor; its receipt keeps the delivery
from before, when there was no latch. -/
theorem stopClaim_granted {files : List BarbaroFeedFile} {current : Option NudgeCursor}
    (hcurrent : StoredOk E current epoch.provider epoch.sessionId) {options : HookNudgeClaimOptions}
    {u : HookCursorUpdate (HookNudgeClaim E)} (h : claimHookNudge epoch files current options = .ok u)
    {r : HookStopClaimRollback} (hr : u.result.receipt = some r) :
    ∃ before first, virtualCursor epoch current = .ok before ∧ u.state = some first ∧
      Latched r first ∧ first.delivery = r.claimed ∧ r.before = before.state.delivery ∧
      before.state.markers = {} ∧ r.claimed.lastTurn.isSome = true := by
  simp only [claimHookNudge, Outcome.bind_ok, Outcome.exists_unit, Outcome.guard_ok,
    withHookCursor_ok] at h
  obtain ⟨-, -, timestamp, -, scan, hscan, h⟩ := h
  obtain ⟨before, hbefore, hstate, hcursor⟩ := scanUnread_ok hscan
  have hready : scan.ready.workstreamId = epoch.workstreamId ∧
      scan.ready.membershipFrom = epoch.start := by
    simp only [scanState, Outcome.bind_ok, Outcome.pure_ok] at hstate
    obtain ⟨st, -, rfl⟩ := hstate
    exact ⟨rfl, rfl⟩
  rw [← hcursor] at hbefore
  have hmember := virtualCursor_same hbefore
  simp only [sameMembership, NudgeCursor.workstreamId, NudgeCursor.membershipFrom, Bool.and_eq_true,
    beq_iff_eq] at hmember
  simp only [claimScan, Outcome.bind_ok, Prod.exists] at h
  obtain ⟨start, turn, hstart, h⟩ := h
  have hfields : ∀ same, ∃ g i d, retireSuppression options start same =
      scan.cursor.state.withTurns g i d := by
    intro same
    obtain ⟨g, i, d, hturns⟩ := claimState_turns hstart
    obtain ⟨i', l, hretired⟩ := retireSuppression_turns options start same
    exact ⟨_, _, _, hretired.trans (by rw [hturns]; rfl)⟩
  obtain ⟨g, i, d, hfields⟩ := hfields (sameTurnDelivery start turn)
  split at h
  · simp only [Outcome.pure_ok] at h
    subst h
    cases hr
  · next hlatch =>
    simp only [Outcome.pure_ok] at h
    subst h
    simp only [HookNudgeClaim.receipt] at hr
    split at hr
    · next hgranted =>
      obtain ⟨hstop, hclaimed⟩ := hgranted
      have hc := hclaimed
      rw [isClaimed, if_neg (not_not.2 hstop)] at hc
      simp only [Bool.and_eq_true, decide_eq_true_eq, Bool.not_eq_true', sameTurnDelivery,
        Bool.or_eq_false_iff, deliveryTurnsEqual, beq_eq_false_iff_ne] at hc
      obtain ⟨hcount, ⟨hlast, -⟩, -⟩ := hc
      have hdelivery := claimState_delivery hstart
        (fun hl => by
          obtain ⟨h1, h2⟩ := virtualCursor_legacy hbefore hl
          cases hd : scan.cursor.state.delivery
          rw [hd] at h1 h2
          simp only at h1 h2
          rw [h1, h2]) hstop hcount hlast
      rw [hclaimed, settleClaim_granted _ _ hstop hcount, hfields] at hr ⊢
      rw [hfields] at hlatch
      have hopen : scan.cursor.state.markers = {} := by
        have hvalid := (virtualCursor_valid hcurrent hbefore).1.legacy.stop
        refine markers_ext ?_
        cases hm : scan.cursor.state.markers.stop with
        | none => rfl
        | some n => exact absurd ⟨hstop, hm.trans (by rw [hvalid n hm])⟩ hlatch
      -- the latch is new, so the state is written
      rw [writeIfChanged, if_pos]
      · cases hr
        exact ⟨scan.cursor, _, hbefore, rfl,
          ⟨hmember.1.trans hready.1.symm, hmember.2.trans hready.2.symm, rfl, rfl⟩, rfl, hdelivery,
          hopen, rfl⟩
      · simp only [Bool.or_eq_true, Bool.not_eq_true', sameCursorPayload, beq_eq_false_iff_ne]
        refine .inr (fun heq => ?_)
        have hm := congrArg (fun c : NudgeCursorV3 => c.markers.stop) heq
        simp only [hopen] at hm
        cases hm
    · cases hr

/-! ## Transactions on a latched cursor -/

/-- What a transaction may do to the ledger while the Stop latch is set: nothing; carry
the told turn over into the next one of Claude; retire it at a Stop boundary; or announce
a count that is higher. -/
inductive LedgerStep (d : NudgeDelivery) : NudgeDelivery → Prop
  | keep : LedgerStep d d
  | carry (g : ℕ) (h : d.lastTurn = some (.claude g)) :
      LedgerStep d { d with lastTurn := some (.claude (g + 1)) }
  | retire : LedgerStep d { d with lastTurn := none }
  | announce (n : ℕ) (turn : NudgeDeliveryTurn) (h : d.highestUnreadCount < n) :
      LedgerStep d { highestUnreadCount := n, lastTurn := some turn }

/-- What a transaction leaves of a latched cursor at its revision. -/
structure SameRevision (c c' : NudgeCursorV3) : Prop where
  workstreamId : c'.workstreamId = c.workstreamId
  membershipFrom : c'.membershipFrom = c.membershipFrom
  cursorRevision : c'.cursorRevision = c.cursorRevision
  markers : c'.markers = c.markers
  ledger : LedgerStep c.delivery c'.delivery

theorem SameRevision.refl (c : NudgeCursorV3) : SameRevision c c := ⟨rfl, rfl, rfl, rfl, .keep⟩

theorem SameRevision.of_delivery {c c' : NudgeCursorV3} (hw : c'.workstreamId = c.workstreamId)
    (hf : c'.membershipFrom = c.membershipFrom) (hr : c'.cursorRevision = c.cursorRevision)
    (hm : c'.markers = c.markers) (hd : c'.delivery = c.delivery) : SameRevision c c' :=
  ⟨hw, hf, hr, hm, hd ▸ .keep⟩

/-- The delivery a claim decides on, from the cursor of its membership. -/
theorem claimState_step {scan : ScopedScan E} {options : HookNudgeClaimOptions}
    {start : NudgeCursorV3} {turn : NudgeDeliveryTurn} (h : claimState scan options = .ok (start, turn))
    (hlegacy : scan.cursor.legacyMarkers = none) :
    let state := retireSuppression options start (sameTurnDelivery start turn)
    LedgerStep scan.cursor.state.delivery state.delivery ∧
      state.delivery.highestUnreadCount = scan.cursor.state.delivery.highestUnreadCount := by
  obtain ⟨s, hs, hturn, rfl⟩ := claimState_ok h
  simp only [hlegacy]
  -- the turn: nothing, or carried over
  have hstart : (s.delivery = scan.cursor.state.delivery) ∨
      ∃ g, scan.cursor.state.delivery.lastTurn = some (.claude g) ∧
        s.delivery = { scan.cursor.state.delivery with lastTurn := some (.claude (g + 1)) } := by
    rcases establishClaimTurn_ok hs with rfl | ⟨g, -, -, -, -, -, rfl⟩
    · exact .inl rfl
    · simp only [nextGeneration]
      split
      · next hc =>
        rw [Bool.and_eq_true, deliveryTurnsEqual, beq_iff_eq] at hc
        exact .inr ⟨g, hc.2, rfl⟩
      · exact .inl rfl
  rw [retireSuppression]
  split
  · rcases hstart with hd | ⟨g, hg, hd⟩
    · simp only [hd]
      exact ⟨.retire, trivial⟩
    · simp only [hd]
      exact ⟨.retire, trivial⟩
  · rcases hstart with hd | ⟨g, hg, hd⟩
    · rw [hd]
      exact ⟨.keep, rfl⟩
    · rw [hd]
      exact ⟨.carry g hg, rfl⟩

/-- The cursor after an update of a cursor of this schema. -/
theorem written_v3 {α : Type} (c : NudgeCursorV3) (u : HookCursorUpdate α) :
    written (some (.v3 c)) u = some (.v3 (u.state.getD c)) := by
  rw [written]
  cases u.state <;> rfl

/-- What a claim leaves, from the cursor of its membership: the next state with some time. -/
theorem writeIfChanged_getD {scan : ScopedScan E} {c next : NudgeCursorV3} {timestamp : JsString}
    (hstate : scan.cursor.state = c) :
    ∃ updatedAt, (writeIfChanged scan next timestamp).getD c = { next with updatedAt } := by
  cases hw : writeIfChanged scan next timestamp with
  | some s => exact ⟨timestamp, writeIfChanged_some hw⟩
  | none =>
    obtain ⟨-, -, heq⟩ := writeIfChanged_none hw
    exact ⟨_, hstate ▸ heq⟩

/-- **A claim on a latched cursor** keeps the latch; if it is granted, it announces a count
higher than all of the revision. -/
theorem claim_step {files : List BarbaroFeedFile} {c : NudgeCursorV3}
    (hsame : sameMembership epoch (.v3 c) = true) (hlatch : c.markers.stop = some c.cursorRevision)
    {options : HookNudgeClaimOptions} {u : HookCursorUpdate (HookNudgeClaim E)}
    (h : claimHookNudge epoch files (some (.v3 c)) options = .ok u) :
    SameRevision c (u.state.getD c) ∧ (u.result.claimed = true →
      c.delivery.highestUnreadCount < (u.state.getD c).delivery.highestUnreadCount) := by
  obtain ⟨scan, start, state, turn, timestamp, hscan, hmade⟩ := claimHookNudge_ok h
  obtain ⟨v, hv, -, hcursor⟩ := scanUnread_ok hscan
  rw [virtualCursor_own hsame, Except.ok.injEq] at hv
  rw [← hv] at hcursor
  have hstate : scan.cursor.state = c := by rw [hcursor]; rfl
  obtain ⟨hledger, hhigh⟩ := claimState_step hmade.start_ok (by rw [hcursor]; rfl)
  rw [← hmade.state_eq, hstate] at hledger hhigh
  have hfields : ∃ g i d, state = c.withTurns g i d := by
    obtain ⟨g, i, d, hturns⟩ := claimState_turns hmade.start_ok
    obtain ⟨i', l, hretired⟩ := retireSuppression_turns options start (sameTurnDelivery start turn)
    rw [hmade.state_eq, hretired, hturns, hstate]
    exact ⟨_, _, _, rfl⟩
  obtain ⟨g, i, d, hfields⟩ := hfields
  rcases hmade.update with ⟨-, -, hu, hclaimed⟩ | ⟨hopen, hclaimed, hu⟩
  · obtain ⟨updatedAt, hnext⟩ := @writeIfChanged_getD _ scan _ state timestamp hstate
    rw [hu, hnext]
    refine ⟨⟨?_, ?_, ?_, ?_, hledger⟩, fun hc => by rw [hclaimed] at hc; cases hc⟩
    all_goals rw [hfields]; rfl
  · -- the latch is set, so the boundary is an informational one
    have hmarker : options.marker ≠ .stop := by
      intro hm
      refine hopen ⟨hm, ?_⟩
      rw [hfields, hstate]
      exact hlatch
    obtain ⟨updatedAt, hnext⟩ := @writeIfChanged_getD _ scan _
      (settleClaim options scan state turn u.result.claimed) timestamp hstate
    rw [hu, hnext]
    cases hgranted : u.result.claimed with
    | false =>
      refine ⟨?_, fun hc => by cases hc⟩
      have hsettled : ∃ feeds reads, settleClaim options scan state turn false =
          { state with feedCursors := feeds, reads := reads } := by
        rw [settleClaim]
        split <;> exact ⟨_, _, rfl⟩
      obtain ⟨feeds, reads, hsettled⟩ := hsettled
      rw [hsettled]
      refine ⟨?_, ?_, ?_, ?_, hledger⟩
      all_goals rw [hfields]; rfl
    | true =>
      have hc := hclaimed.symm.trans hgranted
      rw [isClaimed, if_pos hmarker, Bool.and_eq_true, decide_eq_true_eq, decide_eq_true_eq] at hc
      obtain ⟨hcount, hmore⟩ := hc
      have hsettled : settleClaim options scan state turn true =
          { collapseReadCursor state scan with
            delivery := ⟨max state.delivery.highestUnreadCount scan.ready.unreadCount, some turn⟩ } := by
        have hzero : scan.ready.unreadCount ≠ 0 := by omega
        simp only [settleClaim, hzero, false_and, if_false, if_true, hmarker]
        rfl
      have hraised : c.delivery.highestUnreadCount <
          max state.delivery.highestUnreadCount scan.ready.unreadCount := by omega
      rw [hsettled]
      refine ⟨⟨?_, ?_, ?_, ?_, .announce _ turn hraised⟩, fun _ => hraised⟩
      all_goals rw [hfields]; rfl

/-! ## Any transaction -/

/-- The revision does not fall; and a latched cursor that stays at revision `n` keeps its
latch. -/
structure Moves (n : ℕ) (c c' : NudgeCursorV3) : Prop where
  revision : c.cursorRevision ≤ c'.cursorRevision
  same : c.cursorRevision = n → c'.cursorRevision = n → SameRevision c c'

theorem Moves.refl (n : ℕ) (c : NudgeCursorV3) : Moves n c c := ⟨le_rfl, fun _ _ => .refl c⟩

/-- The state a transaction scans from is the cursor, or a new one of a later revision. -/
theorem scan_state {c : NudgeCursorV3} {files : List BarbaroFeedFile} {scan : ScopedScan E}
    (h : scanUnread epoch none (some (.v3 c)) files = .ok scan) :
    (sameMembership epoch (.v3 c) = true ∧ scan.cursor.state = c) ∨
      (scan.cursor.reset = true ∧ c.cursorRevision < scan.cursor.state.cursorRevision) := by
  obtain ⟨v, hv, -, hcursor⟩ := scanUnread_ok h
  rw [hcursor]
  cases hm : sameMembership epoch (.v3 c) with
  | true =>
    rw [virtualCursor_own hm, Except.ok.injEq] at hv
    rw [← hv]
    exact .inl ⟨rfl, rfl⟩
  | false =>
    rw [virtualCursor, Option.filter_some_neg (by simp [hm])] at hv
    simp only [Outcome.guard_ok, Except.ok.injEq] at hv
    obtain ⟨-, rfl⟩ := hv
    exact .inr ⟨rfl, Nat.lt_succ_self _⟩

/-- What a transaction writes that leaves the latch and the ledger of its scan alone, or
begins a new revision. -/
theorem moves_of_scan {n : ℕ} {c s : NudgeCursorV3} {files : List BarbaroFeedFile} {scan : ScopedScan E}
    (hscan : scanUnread epoch none (some (.v3 c)) files = .ok scan)
    (h : SameRevision scan.cursor.state s ∨ scan.cursor.state.cursorRevision < s.cursorRevision) :
    Moves n c s := by
  rcases scan_state hscan with ⟨-, hs⟩ | ⟨-, hs⟩
  · rw [hs] at h
    rcases h with h | h
    · exact ⟨le_of_eq h.cursorRevision.symm, fun _ _ => h⟩
    · exact ⟨by omega, fun h1 h2 => by omega⟩
  · have hle : scan.cursor.state.cursorRevision ≤ s.cursorRevision := by
      rcases h with h | h
      · exact le_of_eq h.cursorRevision.symm
      · exact le_of_lt h
    exact ⟨by omega, fun h1 h2 => by omega⟩

/-- A claim writes at the revision of its scan. -/
theorem ClaimMade.revision {options : HookNudgeClaimOptions} {scan : ScopedScan E}
    {start state : NudgeCursorV3} {turn : NudgeDeliveryTurn} {timestamp : JsString}
    {u : HookCursorUpdate (HookNudgeClaim E)}
    (h : ClaimMade epoch options scan start state turn timestamp u) {s : NudgeCursorV3}
    (hs : u.state = some s) : s.cursorRevision = scan.cursor.state.cursorRevision := by
  obtain ⟨g, i, d, hturns⟩ := claimState_turns h.start_ok
  obtain ⟨i', l, hretired⟩ := retireSuppression_turns options start (sameTurnDelivery start turn)
  have hstate : state.cursorRevision = scan.cursor.state.cursorRevision := by
    rw [h.state_eq, hretired, hturns]
    rfl
  rcases h.update with ⟨-, -, hu, -⟩ | ⟨-, -, hu⟩
  · rw [hu] at hs
    rw [writeIfChanged_some hs]
    exact hstate
  · rw [hu] at hs
    rw [writeIfChanged_some hs]
    refine Eq.trans ?_ hstate
    unfold settleClaim
    dsimp only
    split
    · rfl
    · split <;> rfl

/-- A claim in another membership begins a new revision. -/
theorem claim_other {c : NudgeCursorV3} {files : List BarbaroFeedFile}
    {options : HookNudgeClaimOptions} {u : HookCursorUpdate (HookNudgeClaim E)}
    (h : claimHookNudge epoch files (some (.v3 c)) options = .ok u) :
    sameMembership epoch (.v3 c) = true ∨ c.cursorRevision < (u.state.getD c).cursorRevision := by
  obtain ⟨scan, start, state, turn, timestamp, hscan, hmade⟩ := claimHookNudge_ok h
  rcases scan_state hscan with ⟨hm, -⟩ | ⟨hreset, hlt⟩
  · exact .inl hm
  · have hwritten : ∃ s, u.state = some s := by
      have hsome : ∀ next, ∃ s, writeIfChanged scan next timestamp = some s := by
        intro next
        rw [writeIfChanged, hreset]
        exact ⟨_, rfl⟩
      rcases hmade.update with ⟨-, -, hu, -⟩ | ⟨-, -, hu⟩
      · rw [hu]
        exact hsome _
      · rw [hu]
        exact hsome _
    obtain ⟨s, hs⟩ := hwritten
    rw [hs, Option.getD_some, hmade.revision hs]
    exact .inr hlt

theorem claim_moves {n : ℕ} {c : NudgeCursorV3} (hlatch : c.cursorRevision = n → c.markers.stop = some n)
    {files : List BarbaroFeedFile} {options : HookNudgeClaimOptions}
    {u : HookCursorUpdate (HookNudgeClaim E)}
    (h : claimHookNudge epoch files (some (.v3 c)) options = .ok u) : Moves n c (u.state.getD c) := by
  rcases claim_other h with hm | hlt
  · have hrevision : c.cursorRevision ≤ (u.state.getD c).cursorRevision := by
      obtain ⟨scan, start, state, turn, timestamp, hscan, hmade⟩ := claimHookNudge_ok h
      cases hs : u.state with
      | none => exact le_rfl
      | some s =>
        rw [Option.getD_some, hmade.revision hs]
        rcases scan_state hscan with ⟨-, hstate⟩ | ⟨-, hlt⟩
        · rw [hstate]
        · exact le_of_lt hlt
    exact ⟨hrevision, fun h1 _ => (claim_step hm (by rw [h1]; exact hlatch h1) h).1⟩
  · exact ⟨le_of_lt hlt, fun h1 h2 => by omega⟩

/-- What a commit writes. -/
theorem commit_step {filesBefore filesAfter : List BarbaroFeedFile} {invocation : HookReadInvocation}
    {options : HookReadOptions E} {modelText : JsString} {state : NudgeCursorV3}
    {pending : NudgePendingRead} {u : HookCursorUpdate HookReadCommit}
    (h : CommitMade epoch filesBefore filesAfter invocation options modelText state pending u)
    {s : NudgeCursorV3} (hs : u.state = some s) :
    SameRevision state s ∨ state.cursorRevision < s.cursorRevision := by
  have hrefused : u = refused state pending.nonce → SameRevision state s := by
    rintro rfl
    cases hs
    exact .of_delivery rfl rfl rfl rfl rfl
  rcases h.outcome with h | ⟨preview, hpreview, h⟩
  · exact .inl (hrefused h)
  · rcases applyPreview_ok h with ⟨-, hnone, -, -⟩ | ⟨-, -, -, -, -, hstate⟩ | ⟨-, -, h⟩ |
      ⟨turn, updatedAt, -, -, -, -, -, -, -, -, -, hstate⟩
    · rw [hnone] at hs; cases hs
    · rw [hstate] at hs
      cases hs
      simp only [previewReadCoverage, Outcome.bind_ok, Outcome.pure_ok, Prod.exists] at hpreview
      obtain ⟨before, -, merged, advanced, -, after, -, rfl⟩ := hpreview
      exact .inl (.of_delivery rfl rfl rfl rfl rfl)
    · exact .inl (hrefused h)
    · rw [hstate] at hs
      cases hs
      exact .inr (Nat.lt_succ_self _)

/-- **What any transaction does**, other than a rollback of this revision. -/
theorem transaction_step {provider : ParticipatingProvider} {sessionId : JsString}
    {receipts : List HookStopClaimRollback} {n : ℕ} {c : NudgeCursorV3}
    (hlatch : c.cursorRevision = n → c.markers.stop = some n)
    (hothers : ∀ r ∈ receipts, r.cursorRevision ≠ n) {α : Type}
    {operation : Option NudgeCursor → Except Failure (HookCursorUpdate α)}
    {gives : α → List HookStopClaimRollback}
    (htx : CursorTransaction E provider sessionId receipts (some (.v3 c)) α operation gives)
    {u : HookCursorUpdate α} (hu : operation (some (.v3 c)) = .ok u) : Moves n c (u.state.getD c) := by
  cases htx with
  | claim epoch hp hs files hfiles options => exact claim_moves hlatch hu
  | rollback receipt hreceipt now =>
    rcases rollback_ok hu with hnone | ⟨c', timestamp, hc, -, happlies, hstate⟩
    · rw [hnone]
      exact .refl n c
    · cases hc
      have hrev := (rollbackApplies_iff.1 happlies).cursorRevision
      have hne := hothers receipt hreceipt
      rw [hstate]
      exact ⟨le_rfl, fun h1 => absurd (hrev.symm.trans h1) hne⟩
  | reserve epoch hp hs files hfiles invocation options ho nonce hnonce hfresh =>
    cases hs' : u.state with
    | none => exact .refl n c
    | some s =>
      obtain ⟨scan, turn, createdAt, expiresAt, hscan, -, -, -, -, -, rfl⟩ := reserve_ok hu hs'
      exact moves_of_scan hscan (.inl (.of_delivery rfl rfl rfl rfl rfl))
  | stage epoch hp hs files hfiles invocation options stdout =>
    cases hs' : u.state with
    | none => exact .refl n c
    | some s =>
      obtain ⟨scan, pending, output, updatedAt, hscan, -, -, -, rfl⟩ := stage_ok hu hs'
      exact moves_of_scan hscan (.inl (.of_delivery rfl rfl rfl rfl rfl))
  | commit epoch hp hs files filesBefore filesAfter hfiles hbefore hafter verify invocation options ho
      modelText =>
    cases hs' : u.state with
    | none => exact .refl n c
    | some s =>
      obtain ⟨scan, hscan, hmade⟩ := commit_ok hu
      rcases hmade with rfl | ⟨pending, hmade⟩
      · cases hs'
      · exact moves_of_scan hscan (commit_step hmade hs')
  | discard epoch hp hs files hfiles toolUseId options =>
    cases hs' : u.state with
    | none => exact .refl n c
    | some s =>
      obtain ⟨scan, pending, hscan, -, rfl⟩ := discard_ok hu hs'
      exact moves_of_scan hscan (.inl (.of_delivery rfl rfl rfl rfl rfl))

/-! ## From the claim to its rollback -/

/-- The ledger `d` was reached from `claimed` by a transaction that changed it: a higher
count was announced, or the turn that was told has been retired or carried over. -/
def Past (claimed d : NudgeDelivery) : Prop :=
  claimed.highestUnreadCount < d.highestUnreadCount ∨
    (d.highestUnreadCount = claimed.highestUnreadCount ∧
      (d.lastTurn = none ∨ ∃ g g', claimed.lastTurn = some (.claude g) ∧
        d.lastTurn = some (.claude g') ∧ g < g'))

theorem Past.highest {claimed d : NudgeDelivery} (h : Past claimed d) :
    claimed.highestUnreadCount ≤ d.highestUnreadCount := by
  rcases h with h | ⟨h, -⟩ <;> omega

/-- A changed ledger never becomes the claimed one again. -/
theorem Past.ne {claimed d : NudgeDelivery} (htold : claimed.lastTurn.isSome = true)
    (h : Past claimed d) : d ≠ claimed := by
  rintro rfl
  rcases h with h | ⟨-, hnone | ⟨g, g', h1, h2, hlt⟩⟩
  · omega
  · rw [hnone] at htold
    cases htold
  · rw [h1, Option.some.injEq, NudgeDeliveryTurn.claude.injEq] at h2
    omega

theorem LedgerStep.first {claimed d : NudgeDelivery} (h : LedgerStep claimed d) (hne : d ≠ claimed) :
    Past claimed d := by
  cases h with
  | keep => exact absurd rfl hne
  | carry g h => exact .inr ⟨rfl, .inr ⟨g, g + 1, h, rfl, Nat.lt_succ_self g⟩⟩
  | retire => exact .inr ⟨rfl, .inl rfl⟩
  | announce n turn h => exact .inl h

theorem Past.step {claimed d d' : NudgeDelivery} (h : Past claimed d) (hs : LedgerStep d d') :
    Past claimed d' := by
  cases hs with
  | keep => exact h
  | carry g hg =>
    rcases h with h | ⟨h, hnone | ⟨g₀, g', h1, h2, hlt⟩⟩
    · exact .inl h
    · rw [hnone] at hg
      cases hg
    · rw [h2, Option.some.injEq, NudgeDeliveryTurn.claude.injEq] at hg
      exact .inr ⟨h, .inr ⟨g₀, g + 1, h1, rfl, by omega⟩⟩
  | retire =>
    rcases h with h | ⟨h, -⟩
    · exact .inl h
    · exact .inr ⟨h, .inl rfl⟩
  | announce n turn hn =>
    have := h.highest
    exact .inl (by simp only; omega)

section
variable (E) (provider : ParticipatingProvider) (sessionId : JsString) (r : HookStopClaimRollback)

/-- The cursors that transactions reach after a claim, and whether one of them changed the
ledger. Rollbacks among them are of other claims: of those with receipts of another
revision, since one Stop claim at most is granted at each. -/
inductive After (first : NudgeCursorV3) : NudgeCursorV3 → Bool → Prop
  | refl : After first first false
  | step {c : NudgeCursorV3} {changed : Bool} (h : After first c changed)
      {receipts : List HookStopClaimRollback}
      (hothers : ∀ r' ∈ receipts, r'.cursorRevision ≠ r.cursorRevision) {α : Type}
      {operation : Option NudgeCursor → Except Failure (HookCursorUpdate α)}
      {gives : α → List HookStopClaimRollback}
      (htx : CursorTransaction E provider sessionId receipts (some (.v3 c)) α operation gives)
      {u : HookCursorUpdate α} (hu : operation (some (.v3 c)) = .ok u) {c' : NudgeCursorV3}
      (hc : written (some (.v3 c)) u = some (.v3 c')) :
      After first c' (changed || c'.delivery != c.delivery)

end

/-- The state of a cursor since the claim: a later revision, or still latched, with the
claimed ledger exactly if nothing changed it. -/
structure Since (r : HookStopClaimRollback) (c : NudgeCursorV3) (changed : Bool) : Prop where
  revision : r.cursorRevision ≤ c.cursorRevision
  latched : c.cursorRevision = r.cursorRevision → Latched r c
  same : c.cursorRevision = r.cursorRevision → changed = false → c.delivery = r.claimed
  past : c.cursorRevision = r.cursorRevision → changed = true → Past r.claimed c.delivery

theorem Since.step {r : HookStopClaimRollback} {c c' : NudgeCursorV3} {changed : Bool}
    (h : Since r c changed) (hm : Moves r.cursorRevision c c') :
    Since r c' (changed || c'.delivery != c.delivery) := by
  have hback : c'.cursorRevision = r.cursorRevision → c.cursorRevision = r.cursorRevision := by
    intro heq
    have h1 := h.revision
    have h2 := hm.revision
    omega
  refine ⟨h.revision.trans hm.revision, fun heq => ?_, fun heq hch => ?_, fun heq hch => ?_⟩
  · obtain ⟨hw, hf, hr, hs⟩ := h.latched (hback heq)
    have hk := hm.same (hback heq) heq
    exact ⟨hk.workstreamId.trans hw, hk.membershipFrom.trans hf, heq, by rw [hk.markers, hs]⟩
  · simp only [Bool.or_eq_false_iff, bne_eq_false_iff_eq] at hch
    rw [hch.2, h.same (hback heq) hch.1]
  · have hk := (hm.same (hback heq) heq).ledger
    cases hc : changed with
    | true => exact (h.past (hback heq) hc).step hk
    | false =>
      rw [hc, Bool.false_or, bne_iff_ne] at hch
      rw [h.same (hback heq) hc] at hk hch
      exact hk.first hch

theorem After.since {provider : ParticipatingProvider} {sessionId : JsString} {r : HookStopClaimRollback}
    {first c : NudgeCursorV3} {changed : Bool} (h : After E provider sessionId r first c changed)
    (hfirst : Latched r first) (hd : first.delivery = r.claimed) : Since r c changed := by
  induction h with
  | refl =>
    exact ⟨le_of_eq hfirst.cursorRevision.symm, fun _ => hfirst, fun _ _ => hd,
      fun _ hc => by cases hc⟩
  | step h hothers htx hu hc ih =>
    rw [written_v3, Option.some.injEq, NudgeCursor.v3.injEq] at hc
    subst hc
    exact ih.step (transaction_step (fun hr => (ih.latched hr).stop) hothers htx hu)

/-- The outcome of taking a Stop claim back. -/
structure TakenBack (before first : NudgeCursorV3) (c : NudgeCursorV3) (changed : Bool)
    (v : HookCursorUpdate Bool) : Prop where
  /-- Another revision, membership or latch: nothing changes. -/
  refused : ¬ (c.cursorRevision = first.cursorRevision ∧ c.workstreamId = first.workstreamId ∧
    c.membershipFrom = first.membershipFrom ∧ c.markers = first.markers) →
      v.state = none ∧ v.result = false
  /-- Else the latch is taken back, and the ledger if nothing changed it. -/
  restored : c.cursorRevision = first.cursorRevision → c.workstreamId = first.workstreamId →
    c.membershipFrom = first.membershipFrom → c.markers = first.markers →
      v.result = true ∧ ∃ updatedAt, v.state = some { c with
        markers := before.markers
        delivery := if changed then c.delivery else before.delivery
        updatedAt }
  /-- A changed ledger has the count of the claim, or a higher one. -/
  kept : c.cursorRevision = first.cursorRevision → changed = true → Past first.delivery c.delivery

/-- **A rollback is the inverse of a granted Stop claim**: it restores the markers, and the
delivery exactly if no transaction since has changed the ledger; a changed ledger it keeps.
A claim granted since has changed it. -/
theorem rollback_inverse {files : List BarbaroFeedFile} {current : Option NudgeCursor}
    (hcurrent : StoredOk E current epoch.provider epoch.sessionId) {options : HookNudgeClaimOptions}
    {u : HookCursorUpdate (HookNudgeClaim E)} (h : claimHookNudge epoch files current options = .ok u)
    {r : HookStopClaimRollback} (hr : u.result.receipt = some r) :
    ∃ before first, virtualCursor epoch current = .ok before ∧ u.state = some first ∧
      ∀ c changed, After E epoch.provider epoch.sessionId r first c changed →
        (∀ now v, rollbackHookStopClaim E (some (.v3 c)) r now = .ok v →
          TakenBack before.state first c changed v) ∧
        ∀ (epoch' : MembershipEpoch E) files' options' u' c',
          claimHookNudge epoch' files' (some (.v3 c)) options' = .ok u' → u'.result.claimed = true →
          written (some (.v3 c)) u' = some (.v3 c') → c.cursorRevision = r.cursorRevision →
          c'.cursorRevision = r.cursorRevision →
            c.delivery.highestUnreadCount < c'.delivery.highestUnreadCount := by
  obtain ⟨before, first, hbefore, hfirst, hlatched, hdelivery, hkept, hopen, htold⟩ :=
    stopClaim_granted hcurrent h hr
  refine ⟨before, first, hbefore, hfirst, fun c changed hafter => ?_⟩
  have hsince := hafter.since hlatched hdelivery
  have hmarkers : first.markers = { stop := some r.cursorRevision } := markers_ext hlatched.stop
  have hiff : Latched r c ↔ c.cursorRevision = first.cursorRevision ∧
      c.workstreamId = first.workstreamId ∧ c.membershipFrom = first.membershipFrom ∧
        c.markers = first.markers := by
    rw [hlatched.cursorRevision, hlatched.workstreamId, hlatched.membershipFrom, hmarkers]
    constructor
    · rintro ⟨h1, h2, h3, h4⟩
      exact ⟨h3, h1, h2, markers_ext h4⟩
    · rintro ⟨h3, h1, h2, h4⟩
      exact ⟨h1, h2, h3, by rw [h4]⟩
  refine ⟨fun now v hv => ?_, ?_⟩
  · simp only [rollbackHookStopClaim, Outcome.bind_ok, Outcome.exists_unit] at hv
    obtain ⟨-, timestamp, -, hv⟩ := hv
    refine ⟨fun hne => ?_, fun h1 h2 h3 h4 => ?_, fun h1 hch => ?_⟩
    · rw [if_neg (fun ha => hne (hiff.1 (rollbackApplies_iff.1 ha))), Outcome.pure_ok] at hv
      rw [← hv]
      exact ⟨rfl, rfl⟩
    · have hl := hiff.2 ⟨h1, h2, h3, h4⟩
      rw [if_pos (rollbackApplies_iff.2 hl), Outcome.pure_ok] at hv
      rw [← hv]
      refine ⟨rfl, timestamp, ?_⟩
      have hif : (if c.delivery = r.claimed then r.before else c.delivery) =
          if changed = true then c.delivery else before.state.delivery := by
        cases hch : changed with
        | true =>
          rw [if_neg ((hsince.past hl.cursorRevision hch).ne htold)]
          rfl
        | false =>
          rw [if_pos (hsince.same hl.cursorRevision hch), hkept]
          rfl
      rw [hif, hopen]
    · rw [hdelivery]
      exact hsince.past (h1.trans hlatched.cursorRevision) hch
  · intro epoch' files' options' u' c' hu' hgranted hc' h1 h2
    rw [written_v3, Option.some.injEq, NudgeCursor.v3.injEq] at hc'
    subst hc'
    rcases claim_other hu' with hm | hlt
    · have hl := (hsince.latched h1).stop
      exact (claim_step hm (by rw [h1]; exact hl) hu').2 hgranted
    · omega

end

/-! ## A queued prompt between a claim and its rollback -/

/-- The recipient is a session of Claude. -/
def claudeEpoch : MembershipEpoch sampleHost := { helloEpoch with provider := .claude }

def claudeStop : HookNudgeClaimOptions where
  marker := .stop
  turn := .claudeCurrent
  now := 1767225602000

/-- Input that was queued while the turn had not ended. -/
def claudeQueuedPrompt : HookNudgeClaimOptions where
  marker := .userPrompt
  turn := .claudeQueued (sampleId "ws" 3) (sampleTime "T00:00:00.000Z")
  now := 1767225602000

/-- The Stop claim, the queued prompt after it, and the rollback. -/
def queuedRollback : Option (HookNudgeClaim sampleHost × NudgeCursorV3 × HookStopClaimRollback ×
    HookNudgeClaim sampleHost × NudgeCursorV3 × Bool × NudgeCursorV3) := do
  let u ← (claimHookNudge claudeEpoch [peerFeed "hi"] none claudeStop).toOption
  let first ← u.state
  let r ← u.result.receipt
  let q ← (claimHookNudge claudeEpoch [peerFeed "hi"] (some (.v3 first)) claudeQueuedPrompt).toOption
  let second ← q.state
  let v ← (rollbackHookStopClaim sampleHost (some (.v3 second)) r 1767225602000).toOption
  let last ← v.state
  return (u.result, first, r, q.result, second, v.result, last)

/-- The prompt announces nothing, yet the delivery from before the claim does not come back. -/
theorem rollback_queued : ∃ u first r q second applied last,
    queuedRollback = some (u, first, r, q, second, applied, last) ∧ u.claimed = true ∧
      q.claimed = false ∧ applied = true ∧ last.markers = {} ∧
      r.before = { highestUnreadCount := 0 } ∧
      last.delivery = { highestUnreadCount := 1, lastTurn := some (.claude 2) } := by
  have h : queuedRollback.map (fun (u, _, r, q, _, applied, last) =>
      (u.claimed, q.claimed, applied, last.markers, r.before, last.delivery)) =
      some (true, false, true, {}, { highestUnreadCount := 0 },
        { highestUnreadCount := 1, lastTurn := some (.claude 2) }) := by
    decide +kernel
  obtain ⟨⟨u, first, r, q, second, applied, last⟩, hrun, h⟩ := Option.map_eq_some_iff.1 h
  simp only [Prod.mk.injEq] at h
  obtain ⟨h1, h2, h3, h4, h5, h6⟩ := h
  exact ⟨u, first, r, q, second, applied, last, hrun, h1, h2, h3, h4, h5, h6⟩

/-- The rollback of that claim without anything between. -/
theorem rollback_inverse_claude : ∃ u r before first,
    claimHookNudge claudeEpoch [peerFeed "hi"] none claudeStop = .ok u ∧ u.result.receipt = some r ∧
      virtualCursor claudeEpoch none = .ok before ∧ u.state = some first ∧
      ∀ now v, rollbackHookStopClaim sampleHost (some (.v3 first)) r now = .ok v →
        TakenBack before.state first first false v := by
  have h : ((claimHookNudge claudeEpoch [peerFeed "hi"] none claudeStop).toOption.bind
      (fun u => u.result.receipt)).isSome = true := by
    decide +kernel
  obtain ⟨r, hr⟩ := Option.isSome_iff_exists.1 h
  obtain ⟨u, hu, hr⟩ := Option.bind_eq_some_iff.1 hr
  have hu := Outcome.toOption_some.1 hu
  obtain ⟨before, first, hbefore, hfirst, hall⟩ :=
    @rollback_inverse _ claudeEpoch _ none (fun c hc => by cases hc) _ _ hu _ hr
  exact ⟨u, r, before, first, hu, hr, hbefore, hfirst, (hall first false .refl).1⟩

end Barbaro
