import Barbaro.Nudge.CursorValid

/-!
# Every transaction writes a valid cursor

No transaction ever fails the check the writer makes: from a valid cursor of any schema,
or none, it makes a valid one.

* `claim_valid`, `rollback_valid`, `reserve_valid`, `stage_valid`, `commit_valid`,
  `discard_valid`: what each transaction writes is valid.
* `claim_receipt`: the receipt a Stop claim gives restores a valid announcement.
-/

namespace Barbaro

/-! ## Parts of a claim -/

section
variable {E : Host} {provider : ParticipatingProvider} {sessionId : JsString}

/-- The turn a hook derives is one a cursor of its provider may hold. -/
theorem currentTurn_valid {turn : HookNudgeTurn} (hturn : validateHookTurn E provider turn = .ok ())
    {s : NudgeCursorV3} (hgen : generationOk provider s.claudeTurnGeneration) {t : NudgeDeliveryTurn}
    (h : currentDeliveryTurn s turn = .ok t) : t.ok provider s.claudeTurnGeneration = true := by
  simp only [validateHookTurn, Outcome.guard_ok, ne_eq, not_not] at hturn
  obtain ⟨hkind, hturn⟩ := hturn
  have hclaude : ∀ g, claudeGeneration s = .ok g → provider = .claude →
      (NudgeDeliveryTurn.claude g).ok provider s.claudeTurnGeneration = true := by
    intro g hg hp
    subst hp
    rw [claudeGeneration_ok hg] at hgen ⊢
    have hbound : 1 ≤ g ∧ g ≤ maxSafeInteger := hgen
    simp [NudgeDeliveryTurn.ok, hbound.1, hbound.2]
  cases turn with
  | codex turnId =>
    cases h
    simp only [Outcome.guard_ok, Bool.not_eq_true', Bool.not_eq_false, and_true] at hturn
    simp [NudgeDeliveryTurn.ok, hkind, HookNudgeTurn.kind, hturn]
  | claudeBegin =>
    simp only [currentDeliveryTurn, Outcome.bind_ok, Outcome.pure_ok] at h
    obtain ⟨g, hg, rfl⟩ := h
    exact hclaude g hg hkind
  | claudeCurrent =>
    simp only [currentDeliveryTurn, Outcome.bind_ok, Outcome.pure_ok] at h
    obtain ⟨g, hg, rfl⟩ := h
    exact hclaude g hg hkind
  | claudeQueued workstreamId membershipFrom =>
    simp only [currentDeliveryTurn, Outcome.bind_ok, Outcome.pure_ok] at h
    obtain ⟨g, hg, rfl⟩ := h
    exact hclaude g hg hkind

/-- The next generation of Claude. -/
theorem nextGeneration_valid {cursor : VirtualCursor} {turn : HookNudgeTurn} {g : ℕ}
    (h : CursorOk E .claude sessionId cursor.state)
    (hg : cursor.state.claudeTurnGeneration = some g) (hbound : g + 1 ≤ maxSafeInteger) :
    CursorOk E .claude sessionId (nextGeneration cursor turn g) ∧
      GenerationLe cursor.state.claudeTurnGeneration (some (g + 1)) := by
  have hle : GenerationLe cursor.state.claudeTurnGeneration (some (g + 1)) := by
    intro n hn
    rw [hg] at hn
    cases hn
    exact ⟨g + 1, rfl, by omega⟩
  refine ⟨?_, hle⟩
  have hnext : (NudgeDeliveryTurn.claude (g + 1)).ok .claude (some (g + 1)) = true := by
    simp [NudgeDeliveryTurn.ok, hbound]
  have hdelivery := h.legacy.delivery.mono hle
  have heq : nextGeneration cursor turn g = cursor.state.withTurns (some (g + 1))
      (nextGeneration cursor turn g).reads.informedTurn (nextGeneration cursor turn g).delivery := by
    unfold nextGeneration NudgeCursorV3.withTurns
    dsimp only
    split
    · split
      · rfl
      · rfl
    · split
      · rfl
      · rfl
  rw [heq]
  refine h.withTurns ⟨by omega, hbound⟩ hle ?_ ?_
  · intro t ht
    simp only [nextGeneration] at ht
    split at ht
    · cases ht
      exact hnext
    · exact (h.reads.mono hle).informedTurn t ht
  · simp only [nextGeneration]
    split
    · next hcarry =>
      -- the suppressed turn had an announcement, which carries over
      refine ⟨hdelivery.bound, fun t ht => ?_⟩
      cases ht
      rw [Bool.and_eq_true, deliveryTurnsEqual, beq_iff_eq] at hcarry
      exact ⟨hnext, (h.legacy.delivery.lastTurn _ hcarry.2).2⟩
    · exact hdelivery

theorem establishClaimTurn_valid {cursor : VirtualCursor} {turn : HookNudgeTurn}
    (hturn : validateHookTurn E provider turn = .ok ()) (h : CursorOk E provider sessionId cursor.state)
    {s : NudgeCursorV3} (hs : establishClaimTurn cursor turn = .ok s) :
    CursorOk E provider sessionId s ∧
      GenerationLe cursor.state.claudeTurnGeneration s.claudeTurnGeneration := by
  rcases establishClaimTurn_ok hs with rfl | ⟨g, hg, hbound, -, -, hkind, rfl⟩
  · exact ⟨h, .refl _⟩
  · simp only [validateHookTurn, Outcome.guard_ok, ne_eq, not_not] at hturn
    have hp : provider = .claude := hturn.1.trans hkind
    subst hp
    exact nextGeneration_valid h hg hbound

/-- The announcements of schema v1, counted at the first claim. -/
theorem legacyDelivery_ok {g : Option ℕ} {markers : NudgeMarkersV1} {unreadCount : ℕ}
    {marker : NudgeMarkerKind} {t : NudgeDeliveryTurn} (ht : t.ok provider g = true)
    (hcount : unreadCount ≤ maxSafeInteger) :
    DeliveryOk provider g (legacyDelivery markers unreadCount marker t) := by
  refine ⟨?_, fun t' ht' => ?_⟩
  · unfold legacyDelivery
    dsimp only
    split
    · exact hcount
    · exact Nat.zero_le _
  · unfold legacyDelivery at ht' ⊢
    dsimp only at ht' ⊢
    split at ht'
    · next hc =>
      cases ht'
      simp only [Bool.and_eq_true, decide_eq_true_eq] at hc
      rw [if_pos hc.1.1]
      exact ⟨ht, by omega⟩
    · cases ht'

/-- **The state a claim starts from** is valid, and its turn is one of it. -/
theorem claimState_valid {scan : ScopedScan E} {options : HookNudgeClaimOptions}
    (hturn : validateHookTurn E provider options.turn = .ok ())
    (h : CursorOk E provider sessionId scan.cursor.state) (hcount : scan.ready.unreadCount ≤ maxSafeInteger)
    {start : NudgeCursorV3} {turn : NudgeDeliveryTurn} (hs : claimState scan options = .ok (start, turn)) :
    CursorOk E provider sessionId start ∧
      GenerationLe scan.cursor.state.claudeTurnGeneration start.claudeTurnGeneration ∧
      turn.ok provider start.claudeTurnGeneration = true := by
  obtain ⟨s, hestablish, hcurrent, rfl⟩ := claimState_ok hs
  obtain ⟨hok, hle⟩ := establishClaimTurn_valid hturn h hestablish
  have ht := currentTurn_valid hturn hok.legacy.generation hcurrent
  split
  · next markers _ =>
    have hdelivery : DeliveryOk provider s.claudeTurnGeneration
        (legacyDelivery markers scan.ready.unreadCount options.marker turn) := legacyDelivery_ok ht hcount
    exact ⟨hok.withTurns hok.legacy.generation (.refl _) hok.reads.informedTurn hdelivery, hle, ht⟩
  · exact ⟨hok, hle, ht⟩

theorem retireSuppression_valid {s : NudgeCursorV3} (h : CursorOk E provider sessionId s)
    (options : HookNudgeClaimOptions) (same : Bool) :
    CursorOk E provider sessionId (retireSuppression options s same) ∧
      (retireSuppression options s same).claudeTurnGeneration = s.claudeTurnGeneration := by
  unfold retireSuppression
  split
  · have hd : DeliveryOk provider s.claudeTurnGeneration { s.delivery with lastTurn := none } :=
      ⟨h.legacy.delivery.bound, (fun t ht => by cases ht)⟩
    exact ⟨h.withTurns h.legacy.generation (.refl _) (fun t ht => by cases ht) hd, rfl⟩
  · exact ⟨h, rfl⟩

theorem CursorOk.collapse {s : NudgeCursorV3} (h : CursorOk E provider sessionId s) {scan : ScopedScan E}
    (hfeeds : FeedsOk scan.coveredFeedCursors) :
    CursorOk E provider sessionId (collapseReadCursor s scan) := by
  obtain ⟨hp, hs, hb, hstop, hg, hd⟩ := h.legacy
  have hr := h.reads
  exact ⟨⟨hp, hs, ⟨hb.session, hb.workstream, hb.membership, hb.updated, hb.revision, hfeeds⟩, hstop, hg,
    hd⟩, ⟨hr.pending, hr.pendingBound, hr.nonces, hr.toolUseIds, hr.coverage.filter _,
      (List.length_filter_le _ _).trans hr.coverageBound, hr.informedTurn⟩⟩

/-- What was delivered in full has no history outside its window. -/
theorem CursorOk.window {s : NudgeCursorV3} (h : CursorOk E provider sessionId s) (outsideWindow : Bool) :
    CursorOk E provider sessionId { s with reads := { s.reads with outsideWindow } } := by
  have hr := h.reads
  exact ⟨h.legacy, ⟨hr.pending, hr.pendingBound, hr.nonces, hr.toolUseIds, hr.coverage, hr.coverageBound,
    hr.informedTurn⟩⟩

/-- Another Stop latch: none, or the present revision. -/
theorem CursorOk.latched {s : NudgeCursorV3} (h : CursorOk E provider sessionId s) {markers : NudgeMarkersV2}
    (hm : ∀ r, markers.stop = some r → r = s.cursorRevision) :
    CursorOk E provider sessionId { s with markers } := by
  obtain ⟨hp, hs, hb, -, hg, hd⟩ := h.legacy
  exact ⟨⟨hp, hs, hb, hm, hg, hd⟩, h.reads⟩

/-- An announcement of a positive count is valid. -/
theorem announced_ok {g : Option ℕ} {d : NudgeDelivery} (h : DeliveryOk provider g d)
    {t : NudgeDeliveryTurn} (ht : t.ok provider g = true) {count : ℕ} (hpos : 0 < count)
    (hcount : count ≤ maxSafeInteger) :
    DeliveryOk provider g { highestUnreadCount := max d.highestUnreadCount count, lastTurn := some t } := by
  refine ⟨max_le h.bound hcount, fun t' ht' => ?_⟩
  cases ht'
  dsimp only
  exact ⟨ht, by omega⟩

/-- **The decision of a claim** keeps the cursor valid. -/
theorem settleClaim_valid {options : HookNudgeClaimOptions} {scan : ScopedScan E} {s : NudgeCursorV3}
    {turn : NudgeDeliveryTurn} {claimed : Bool} (h : CursorOk E provider sessionId s)
    (hfeeds : FeedsOk scan.coveredFeedCursors) (hcount : scan.ready.unreadCount ≤ maxSafeInteger)
    (hrevision : s.cursorRevision = scan.cursor.state.cursorRevision)
    (hturn : turn.ok provider s.claudeTurnGeneration = true)
    (hclaimed : claimed = true → 0 < scan.ready.unreadCount) :
    CursorOk E provider sessionId (settleClaim options scan s turn claimed) := by
  have hnext := h.collapse hfeeds
  unfold settleClaim
  dsimp only
  split
  · exact hnext.window false
  · split
    · next hc =>
      have hd := announced_ok hnext.legacy.delivery hturn (hclaimed hc) hcount
      have hdelivered := hnext.withTurns hnext.legacy.generation (.refl _) hnext.reads.informedTurn hd
      refine hdelivered.latched fun r hr => ?_
      split at hr
      · cases hr
        exact hrevision.symm
      · exact hnext.legacy.stop r hr
    · exact hnext

end

/-! ## Claims -/

section
variable {E : Host} {epoch : MembershipEpoch E} {current : Option NudgeCursor}
  {files : List BarbaroFeedFile}

/-- The receipt a claim gives: a Stop that blocked can be taken back. -/
def HookNudgeClaim.receipt : HookNudgeClaim E → Option HookStopClaimRollback
  | .alreadyClaimed _ _ => none
  | .ready claim => claim.stopRollback

/-- The decision does not touch the turns, and latches nothing but a Stop. -/
theorem settleClaim_generation (options : HookNudgeClaimOptions) (scan : ScopedScan E) (s : NudgeCursorV3)
    (turn : NudgeDeliveryTurn) (claimed : Bool) :
    (settleClaim options scan s turn claimed).claudeTurnGeneration = s.claudeTurnGeneration := by
  unfold settleClaim
  dsimp only
  split
  · rfl
  · split
    · rfl
    · rfl

/-- **A claim writes a valid cursor.** -/
theorem claim_valid (hcurrent : StoredOk E current epoch.provider epoch.sessionId) (hfiles : Listed files)
    {options : HookNudgeClaimOptions} {u : HookCursorUpdate (HookNudgeClaim E)}
    (h : claimHookNudge epoch files current options = .ok u) {s : NudgeCursorV3} (hs : u.state = some s) :
    CursorOk E epoch.provider epoch.sessionId s ∧ Follows current s := by
  obtain ⟨scan, start, state, turn, timestamp, hscan, hmade⟩ := claimHookNudge_ok h
  have hfound := scanUnread_found hcurrent hfiles hscan
  obtain ⟨hstart, hle, hturn⟩ := claimState_valid hmade.turn_ok hfound.valid hfound.count hmade.start_ok
  obtain ⟨g, i, d, hturns⟩ := claimState_turns hmade.start_ok
  obtain ⟨i', l, hretired⟩ := retireSuppression_turns options start (sameTurnDelivery start turn)
  obtain ⟨hstate, hgen⟩ := retireSuppression_valid hstart options (sameTurnDelivery start turn)
  rw [← hmade.state_eq] at hstate hgen hretired
  have hrevision : state.cursorRevision = scan.cursor.state.cursorRevision := by
    rw [hretired, hturns]
    rfl
  have hfollows : Follows current start := hfound.follows.later hle
  rcases hmade.update with ⟨-, -, hu, -⟩ | ⟨-, hclaimed, hu⟩
  · rw [hu] at hs
    rw [writeIfChanged_some hs]
    exact ⟨hstate.stamped hmade.time, hfollows.later (hgen ▸ .refl _)⟩
  · rw [hu] at hs
    rw [writeIfChanged_some hs]
    have hpos : u.result.claimed = true → 0 < scan.ready.unreadCount := by
      intro hc
      rw [hclaimed, isClaimed, Bool.and_eq_true, decide_eq_true_eq] at hc
      exact hc.1
    have hsettled : CursorOk E epoch.provider epoch.sessionId
        (settleClaim options scan state turn u.result.claimed) :=
      settleClaim_valid hstate hfound.feeds hfound.count hrevision (hgen ▸ hturn) hpos
    refine ⟨hsettled.stamped hmade.time, hfollows.later ?_⟩
    dsimp only
    rw [settleClaim_generation, hgen]
    exact .refl _

/-- **The receipt of a Stop claim** restores an announcement that was valid, and the claim
it is given for has been written. -/
theorem claim_receipt (hcurrent : StoredOk E current epoch.provider epoch.sessionId) (hfiles : Listed files)
    {options : HookNudgeClaimOptions} {u : HookCursorUpdate (HookNudgeClaim E)}
    (h : claimHookNudge epoch files current options = .ok u) {r : HookStopClaimRollback}
    (hr : u.result.receipt = some r) :
    ∃ s, u.state = some s ∧ DeliveryOk epoch.provider s.claudeTurnGeneration r.before := by
  simp only [claimHookNudge, Outcome.bind_ok, Outcome.exists_unit, Outcome.guard_ok,
    withHookCursor_ok] at h
  obtain ⟨hvalid, -, timestamp, -, scan, hscan, h⟩ := h
  have hfound := scanUnread_found hcurrent hfiles hscan
  simp only [claimScan, Outcome.bind_ok, Prod.exists] at h
  obtain ⟨start, turn, hstart, h⟩ := h
  obtain ⟨hok, -, -⟩ := claimState_valid hvalid hfound.valid hfound.count hstart
  obtain ⟨g, i, d, hturns⟩ := claimState_turns hstart
  obtain ⟨i', l, hretired⟩ := retireSuppression_turns options start (sameTurnDelivery start turn)
  have hgen := (retireSuppression_valid hok options (sameTurnDelivery start turn)).2
  split at h
  · simp only [Outcome.pure_ok] at h
    subst h
    cases hr
  · next hlatch =>
    simp only [Outcome.pure_ok] at h
    subst h
    simp only [HookNudgeClaim.receipt] at hr
    split at hr
    · next hstop =>
      cases hr
      cases hw : writeIfChanged scan (settleClaim options scan
          (retireSuppression options start (sameTurnDelivery start turn)) turn
          (isClaimed options scan.ready.unreadCount
            (retireSuppression options start (sameTurnDelivery start turn))
            (sameTurnDelivery start turn))) timestamp with
      | none =>
        -- the latch is new, so the state has changed
        exfalso
        refine hlatch ⟨hstop.1, ?_⟩
        obtain ⟨-, -, heq⟩ := writeIfChanged_none hw
        have hmarkers := congrArg (fun c : NudgeCursorV3 => c.markers.stop) heq
        have hpos : scan.ready.unreadCount ≠ 0 := by
          have hc := hstop.2
          rw [isClaimed, Bool.and_eq_true, decide_eq_true_eq] at hc
          omega
        simp only [settleClaim, hpos, false_and, if_false, hstop.2, hstop.1, if_true] at hmarkers
        rw [hretired, hturns]
        exact hmarkers
      | some s =>
        refine ⟨s, rfl, ?_⟩
        rw [writeIfChanged_some hw]
        dsimp only
        rw [settleClaim_generation, hgen]
        exact hok.legacy.delivery
    · cases hr

/-- **A rollback writes a valid cursor.** -/
theorem rollback_valid {provider : ParticipatingProvider} {sessionId : JsString}
    (hcurrent : StoredOk E current provider sessionId) {receipt : HookStopClaimRollback} {now : ℤ}
    (hreceipt : ∀ c, current = some (.v3 c) → DeliveryOk provider c.claudeTurnGeneration receipt.before)
    {u : HookCursorUpdate Bool} (h : rollbackHookStopClaim E current receipt now = .ok u)
    {s : NudgeCursorV3} (hs : u.state = some s) :
    CursorOk E provider sessionId s ∧ Follows current s := by
  rcases rollback_ok h with hnone | ⟨c, timestamp, hc, htime, -, hu⟩
  · rw [hnone] at hs
    cases hs
  · rw [hu] at hs
    cases hs
    have hok : CursorOk E provider sessionId c := hcurrent _ hc
    have hdelivery : DeliveryOk provider c.claudeTurnGeneration
        (if c.delivery = receipt.claimed then receipt.before else c.delivery) := by
      split
      · exact hreceipt c hc
      · exact hok.legacy.delivery
    have hrestored := hok.withTurns hok.legacy.generation (.refl _) hok.reads.informedTurn hdelivery
    refine ⟨(hrestored.latched (fun r hr => by cases hr)).stamped htime, fun c' hc' => ?_⟩
    rw [hc] at hc'
    cases hc'
    exact .refl _

end

/-! ## Reads -/

section
variable {E : Host} {epoch : MembershipEpoch E} {current : Option NudgeCursor}
  {files : List BarbaroFeedFile}

/-- The times of a pending read that starts now. -/
theorem timestamps_ok {now : ℤ} {createdAt expiresAt : JsString} (hc : E.isoString now = some createdAt)
    (he : E.isoString (now + readInvocationTtlMs) = some expiresAt) :
    isTimestamp E createdAt = true ∧ isTimestamp E expiresAt = true ∧
      withinTtl E createdAt expiresAt = true := by
  obtain ⟨hc1, hc2, hc3⟩ := E.isoString_parse _ _ hc
  obtain ⟨he1, he2, he3⟩ := E.isoString_parse _ _ he
  have httl : (0 : ℤ) < readInvocationTtlMs := by decide
  refine ⟨?_, ?_, ?_⟩
  · simp [isTimestamp, bounded, hc1, hc2, hc3]
  · simp [isTimestamp, bounded, he1, he2, he3]
  · unfold withinTtl
    rw [hc1, he1]
    simp only [Bool.and_eq_true, decide_eq_true_eq]
    omega

theorem pendingEntry_ok {invocation : HookReadInvocation} {nonce : JsString} (hnonce : isNonce nonce = true)
    {provider : ParticipatingProvider} {g : Option ℕ} {turn : NudgeDeliveryTurn}
    (hturn : turn.ok provider g = true) {now : ℤ} {createdAt expiresAt : JsString}
    (hc : E.isoString now = some createdAt)
    (he : E.isoString (now + readInvocationTtlMs) = some expiresAt) :
    (pendingEntry E invocation nonce turn createdAt expiresAt).ok E provider g = true := by
  obtain ⟨hcreated, hexpires, httl⟩ := timestamps_ok hc he
  have hquery : isSha256Hex (readQueryHash E invocation.query) = true := E.hex _
  have hroot := invocation.projectRoot_ok
  simp only [NudgePendingRead.ok, pendingBindingOk, pendingEntry, hnonce, invocation.toolUseId_ok, hroot.1,
    hroot.2, invocation.command_ok, hquery, invocation.toolInputHash_ok, hcreated, hexpires, httl, hturn,
    Bool.and_self, beq_self_eq_true]

/-- **A reservation writes a valid cursor**: the nonce is one no pending read has. -/
theorem reserve_valid (hcurrent : StoredOk E current epoch.provider epoch.sessionId) (hfiles : Listed files)
    {invocation : HookReadInvocation} {options : HookReadOptions E}
    (hprovider : options.provider = epoch.provider) {nonce : JsString} (hnonce : isNonce nonce = true)
    (hfresh : ∀ c, current = some (.v3 c) → ∀ p ∈ c.reads.pending, p.nonce ≠ nonce)
    {u : HookCursorUpdate HookReadReservation}
    (h : reserveHookRead epoch files current invocation options nonce = .ok u) {s : NudgeCursorV3}
    (hs : u.state = some s) : CursorOk E epoch.provider epoch.sessionId s ∧ Follows current s := by
  obtain ⟨scan, turn, createdAt, expiresAt, hscan, hturn, hc, he, hroom, hids, rfl⟩ := reserve_ok h hs
  have hfound := scanUnread_found hcurrent hfiles hscan
  have hok := hfound.valid
  have ht := currentTurn_valid (hprovider ▸ options.turn_ok) hok.legacy.generation hturn
  have hentry : (pendingEntry E invocation nonce turn createdAt expiresAt).ok E epoch.provider
      scan.cursor.state.claudeTurnGeneration = true := pendingEntry_ok hnonce ht hc he
  have hsub : (livePending E options.now scan.cursor.state.reads.pending).Sublist
      scan.cursor.state.reads.pending := List.filter_sublist
  have hlive := hok.reads.sublist hsub
  have hpending : ∀ p ∈ scan.cursor.state.reads.pending, p.nonce ≠ nonce := by
    obtain ⟨v, hv, -, rfl⟩ := scanUnread_ok hscan
    intro p hp
    rcases virtualCursor_pending hv with hnil | ⟨c, hcur, hstate⟩
    · rw [hnil] at hp
      cases hp
    · rw [hstate] at hp
      exact hfresh c hcur p hp
  have hreads : { scan.cursor.state.reads with
      pending := livePending E options.now scan.cursor.state.reads.pending ++
        [pendingEntry E invocation nonce turn createdAt expiresAt] }.Ok E epoch.provider
      scan.cursor.state.claudeTurnGeneration := by
    refine ⟨fun p hp => ?_, ?_, ?_, ?_, hlive.coverage, hlive.coverageBound, hlive.informedTurn⟩
    · rcases List.mem_append.1 hp with hp | hp
      · exact hlive.pending p hp
      · rw [List.mem_singleton.1 hp]
        exact hentry
    · simp only [List.length_append, List.length_singleton]
      omega
    · rw [List.map_append, List.nodup_append]
      refine ⟨hlive.nonces, List.nodup_singleton _, fun a ha b hb hab => ?_⟩
      obtain ⟨p, hp, rfl⟩ := List.mem_map.1 ha
      rw [List.map_singleton, List.mem_singleton] at hb
      exact hpending p (List.mem_of_mem_filter hp) (hab.trans hb)
    · rw [List.map_append, List.nodup_append]
      refine ⟨hlive.toolUseIds, List.nodup_singleton _, fun a ha b hb hab => ?_⟩
      obtain ⟨p, hp, rfl⟩ := List.mem_map.1 ha
      rw [List.map_singleton, List.mem_singleton] at hb
      exact hids p hp (hab.trans hb)
  have hnext : CursorOk E epoch.provider epoch.sessionId (scan.cursor.state.withPending
      (livePending E options.now scan.cursor.state.reads.pending ++
        [pendingEntry E invocation nonce turn createdAt expiresAt])) := ⟨hok.legacy, hreads⟩
  exact ⟨hnext.stamped hc, hfound.follows⟩

/-- The text of an envelope fits into a pending read. -/
theorem envelope_bounded {text : JsString} {query : ReadQuery} {recipient : ReadRecipient}
    {nonce : JsString} {envelope : DeliveredEnvelope}
    (h : parseDeliveredEnvelope E text query recipient nonce = some envelope) :
    bounded readOutputCeilingBytes envelope.text = true := by
  simp only [parseDeliveredEnvelope] at h
  split at h
  · cases h
  · next hsize =>
    split at h
    · cases h
    · next output hparse =>
      have hne : dropNewline text ≠ [] := by
        intro hnil
        rw [hnil] at hparse
        have hempty : Json.parse E.float [] = none := by
          simp [Json.parse, Json.parseValue, Json.skipWs]
        rw [hempty] at hparse
        cases hparse
      have hbound : bounded readOutputCeilingBytes (dropNewline text) = true := by
        have hpos := List.length_pos_iff.2 hne
        simp only [bounded, Bool.and_eq_true, decide_eq_true_eq]
        omega
      split at h
      · cases h
      · split at h
        · split at h
          · split at h
            · cases h
            · obtain ⟨coverage, -, rfl⟩ := Option.map_eq_some_iff.1 h
              exact hbound
          · cases h
        · cases h

/-- **Staging writes a valid cursor.** -/
theorem stage_valid (hcurrent : StoredOk E current epoch.provider epoch.sessionId) (hfiles : Listed files)
    {invocation : HookReadInvocation} {options : HookReadOptions E} {stdout : JsString}
    {u : HookCursorUpdate Bool}
    (h : stageHookReadOutput epoch files current invocation options stdout = .ok u) {s : NudgeCursorV3}
    (hs : u.state = some s) : CursorOk E epoch.provider epoch.sessionId s ∧ Follows current s := by
  obtain ⟨scan, pending, output, updatedAt, hscan, -, houtput, htime, rfl⟩ := stage_ok h hs
  have hfound := scanUnread_found hcurrent hfiles hscan
  have hok := hfound.valid
  have hr := hok.reads
  have hbound := envelope_bounded houtput
  have hstaged : ∀ p ∈ withOutput pending.nonce output.text scan.cursor.state.reads.pending,
      p.ok E epoch.provider scan.cursor.state.claudeTurnGeneration = true := by
    intro p hp
    obtain ⟨q, hq, rfl⟩ := List.mem_map.1 hp
    have hqok := hr.pending q hq
    split
    · simp only [NudgePendingRead.ok, pendingBindingOk, Bool.and_eq_true] at hqok ⊢
      exact ⟨⟨hqok.1.1, hbound⟩, hqok.2⟩
    · exact hqok
  have hnonces : (withOutput pending.nonce output.text scan.cursor.state.reads.pending).map
      NudgePendingRead.nonce = scan.cursor.state.reads.pending.map NudgePendingRead.nonce := by
    unfold withOutput
    rw [List.map_map]
    refine List.map_congr_left fun p _ => ?_
    simp only [Function.comp_apply]
    split
    · rfl
    · rfl
  have hids : (withOutput pending.nonce output.text scan.cursor.state.reads.pending).map
      NudgePendingRead.toolUseId = scan.cursor.state.reads.pending.map NudgePendingRead.toolUseId := by
    unfold withOutput
    rw [List.map_map]
    refine List.map_congr_left fun p _ => ?_
    simp only [Function.comp_apply]
    split
    · rfl
    · rfl
  have hnext : CursorOk E epoch.provider epoch.sessionId (scan.cursor.state.withPending
      (withOutput pending.nonce output.text scan.cursor.state.reads.pending)) := by
    refine ⟨hok.legacy, hstaged, ?_, hnonces ▸ hr.nonces, hids ▸ hr.toolUseIds, hr.coverage,
      hr.coverageBound, hr.informedTurn⟩
    have hlen : (withOutput pending.nonce output.text scan.cursor.state.reads.pending).length =
        scan.cursor.state.reads.pending.length := List.length_map _
    exact hlen.trans_le hr.pendingBound
  exact ⟨hnext.stamped htime, hfound.follows⟩

/-- **A discard writes a valid cursor.** -/
theorem discard_valid (hcurrent : StoredOk E current epoch.provider epoch.sessionId)
    (hfiles : Listed files) {toolUseId : JsString} {options : HookReadOptions E} {u : HookCursorUpdate Unit}
    (h : discardHookRead epoch files current toolUseId options = .ok u) {s : NudgeCursorV3}
    (hs : u.state = some s) : CursorOk E epoch.provider epoch.sessionId s ∧ Follows current s := by
  obtain ⟨scan, pending, hscan, hsub, rfl⟩ := discard_ok h hs
  have hfound := scanUnread_found hcurrent hfiles hscan
  exact ⟨hfound.valid.pending hsub, hfound.follows⟩

/-! ## Commits -/

variable {filesBefore filesAfter : List BarbaroFeedFile} {state : NudgeCursorV3}
  {delivered : List NudgeReadCoverage} {preview : ReadCoveragePreview}

/-- What a preview may make of a valid cursor: all but the number of its entries is
checked. -/
structure Previewed (epoch : MembershipEpoch E) (state : NudgeCursorV3) (preview : ReadCoveragePreview) :
    Prop where
  valid : preview.state.reads.coverage.length ≤ maxReadCoverageRecords →
    CursorOk E epoch.provider epoch.sessionId preview.state
  generation : preview.state.claudeTurnGeneration = state.claudeTurnGeneration
  unchanged : preview.advanced = false →
    preview.state.reads.coverage.length ≤ maxReadCoverageRecords

theorem preview_valid (hstate : CursorOk E epoch.provider epoch.sessionId state) (hbefore : Listed filesBefore)
    (hafter : Listed filesAfter)
    (h : previewReadCoverage epoch filesBefore filesAfter state delivered = .ok preview) :
    Previewed epoch state preview := by
  simp only [previewReadCoverage, Outcome.bind_ok, Outcome.pure_ok, Prod.exists] at h
  obtain ⟨before, hb, merged, advanced, hmerge, after, ha, rfl⟩ := h
  have hstored : StoredOk E (some (.v3 state)) epoch.provider epoch.sessionId := by
    intro c hc
    cases hc
    exact hstate
  have hfound := scanUnread_found hstored hbefore hb
  have hbase := hstate.collapse hfound.feeds
  obtain ⟨hmerged, -, hreads⟩ := mergeReadCoverageForScan_ok hbase.reads.coverage hmerge
  have hfeeds : FeedsOk after.coveredFeedCursors := by
    rw [scanAfter] at ha
    split at ha
    · obtain ⟨v, hv, hscan, -⟩ := scanUnread_ok ha
      refine scan_feeds hafter.1 ?_ hscan
      rcases virtualCursor_v3 hv with hv' | ⟨hv', -⟩
      · rw [hv']
        exact hbase.legacy.base.feeds
      · rw [hv']
        exact ⟨(fun f hf => by cases hf), .nil⟩
    · cases ha
      exact hfound.feeds
  obtain ⟨hp, hs, hbs, hstop, hg, hd⟩ := hbase.legacy
  have hr := hbase.reads
  refine ⟨fun hbound => ?_, rfl, fun hadv => ?_⟩
  · refine ⟨⟨hp, hs, ⟨hbs.session, hbs.workstream, hbs.membership, hbs.updated, hbs.revision, hfeeds⟩, hstop,
      hg, hd⟩, ?_⟩
    have hpending : merged.pending = state.reads.pending := by rw [hreads]; rfl
    have hinformed : merged.informedTurn = state.reads.informedTurn := by rw [hreads]; rfl
    refine ⟨?_, ?_, ?_, ?_, hmerged.ok.filter _, hbound, ?_⟩
    · exact hpending ▸ hr.pending
    · exact hpending ▸ hr.pendingBound
    · exact hpending ▸ hr.nonces
    · exact hpending ▸ hr.toolUseIds
    · exact hinformed ▸ hr.informedTurn
  · have hsame : merged.coverage = (collapseReadCursor state before).reads.coverage :=
      hmerged.unchanged hadv
    simp only [collapseReadCursor, hsame]
    exact (List.length_filter_le _ _).trans ((List.length_filter_le _ _).trans
      hstate.reads.coverageBound)

/-- A commit drops its own pending read. -/
theorem refused_valid (hstate : CursorOk E epoch.provider epoch.sessionId state) (nonce : JsString)
    {s : NudgeCursorV3} (hs : (refused state nonce).state = some s) :
    CursorOk E epoch.provider epoch.sessionId s ∧
      s.claudeTurnGeneration = state.claudeTurnGeneration := by
  cases hs
  exact ⟨hstate.pending List.filter_sublist, rfl⟩

/-- The new revision of an advancing commit. -/
theorem advancedState_valid (hstate : CursorOk E epoch.provider epoch.sessionId preview.state)
    {invocation : HookReadInvocation} (hrevision : state.cursorRevision + 1 ≤ maxSafeInteger)
    {nonce : JsString} {turn : NudgeDeliveryTurn}
    (hturn : turn.ok epoch.provider preview.state.claudeTurnGeneration = true) {now : ℤ} {updatedAt : JsString}
    (htime : E.isoString now = some updatedAt) :
    CursorOk E epoch.provider epoch.sessionId
      (advancedState invocation state preview nonce turn updatedAt) := by
  have hsub : (withoutNonce nonce preview.state.reads.pending).Sublist preview.state.reads.pending :=
    List.filter_sublist
  have hinformed : ∀ t, some turn = some t →
      t.ok epoch.provider preview.state.claudeTurnGeneration = true := by
    intro t ht
    cases ht
    exact hturn
  have hturns := (hstate.pending hsub).withTurns hstate.legacy.generation (.refl _) hinformed deliveryOk_zero
  have hwindow := hturns.window ((preview.unreadCount > 0 || preview.coverageIncomplete) &&
    (invocation.query.kind = .context || state.reads.outsideWindow))
  obtain ⟨hp, hs, hb, -, hg, hd⟩ := (hwindow.stamped htime).legacy
  have hrev : 1 ≤ state.cursorRevision + 1 ∧ state.cursorRevision + 1 ≤ maxSafeInteger :=
    ⟨by omega, hrevision⟩
  exact ⟨⟨hp, hs, ⟨hb.session, hb.workstream, hb.membership, hb.updated, hrev, hb.feeds⟩,
    (fun r hr => by cases hr), hg, hd⟩, hwindow.reads⟩

/-- **A commit writes a valid cursor.** -/
theorem commit_valid (hcurrent : StoredOk E current epoch.provider epoch.sessionId) (hfiles : Listed files)
    (hbefore : Listed filesBefore) (hafter : Listed filesAfter)
    {verify : ReadQuery → DeliveredEnvelope → Except Failure Bool} {invocation : HookReadInvocation}
    {options : HookReadOptions E} (hprovider : options.provider = epoch.provider) {modelText : JsString}
    {u : HookCursorUpdate HookReadCommit}
    (h : commitHookReadOutput verify epoch files filesBefore filesAfter current invocation options
      modelText = .ok u) {s : NudgeCursorV3} (hs : u.state = some s) :
    CursorOk E epoch.provider epoch.sessionId s ∧ Follows current s := by
  obtain ⟨scan, hscan, hmade⟩ := commit_ok h
  have hfound := scanUnread_found hcurrent hfiles hscan
  have hrefused : ∀ nonce, (refused scan.cursor.state nonce).state = some s →
      CursorOk E epoch.provider epoch.sessionId s ∧ Follows current s := by
    intro nonce hnonce
    obtain ⟨hok, hgen⟩ := refused_valid hfound.valid nonce hnonce
    exact ⟨hok, hfound.follows.later (hgen ▸ .refl _)⟩
  rcases hmade with rfl | ⟨pending, hmade⟩
  · cases hs
  · rcases hmade.outcome with rfl | ⟨preview, hpreview, happly⟩
    · exact hrefused _ hs
    · have hprev := preview_valid hfound.valid hbefore hafter hpreview
      have hfollows : Follows current preview.state :=
        hfound.follows.later (hprev.generation ▸ .refl _)
      rcases applyPreview_ok happly with ⟨-, hnone, -, -⟩ | ⟨-, hadv, -, -, -, hu⟩ | ⟨-, -, rfl⟩ |
        ⟨turn, updatedAt, -, -, hrev, hturn, htime, -, -, -, hfits, hu⟩
      · rw [hnone] at hs
        cases hs
      · rw [hu] at hs
        cases hs
        have hok := hprev.valid (hprev.unchanged hadv)
        exact ⟨hok.pending List.filter_sublist, hfollows⟩
      · exact hrefused _ hs
      · rw [hu] at hs
        cases hs
        have hbound : preview.state.reads.coverage.length ≤ maxReadCoverageRecords := by
          simp only [readCoverageFits, Bool.and_eq_true, decide_eq_true_eq] at hfits
          exact hfits.1.1.1
        have ht := currentTurn_valid (hprovider ▸ options.turn_ok) hfound.valid.legacy.generation hturn
        rw [← hprev.generation] at ht
        exact ⟨advancedState_valid (hprev.valid hbound) hrev ht htime, hfollows⟩

end

end Barbaro
