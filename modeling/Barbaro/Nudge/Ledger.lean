import Barbaro.Nudge.Run

/-!
# The announcement ledger

The claims of one revision, one after the other, with the counts they announced: the
high-water of the cursor is the highest count of the ledger, its Stop latch says whether a
Stop was granted.

* `claim_ledger`: what one claim does to the ledger.
* `announcement_ledger`: which claims are granted.
* `announcement_withheld`: a claim of count zero, and one on a legacy marker, are not.
-/

namespace Barbaro

/-! ## Highest counts -/

/-- The highest count of a ledger, zero for an empty one. -/
def highest (ledger : List ℕ) : ℕ := ledger.foldr max 0

@[simp] theorem highest_nil : highest [] = 0 := rfl

@[simp] theorem highest_cons (n : ℕ) (ledger : List ℕ) : highest (n :: ledger) = max n (highest ledger) :=
  rfl

theorem highest_append (as bs : List ℕ) : highest (as ++ bs) = max (highest as) (highest bs) := by
  induction as with
  | nil => simp
  | cons n as ih => rw [List.cons_append, highest_cons, highest_cons, ih, max_assoc]

/-- A positive count exceeds the highest one when it exceeds all. -/
theorem highest_lt {ledger : List ℕ} {n : ℕ} (hn : 0 < n) :
    highest ledger < n ↔ ∀ m ∈ ledger, m < n := by
  induction ledger with
  | nil => simpa using hn
  | cons m ledger ih => simp [ih]

section
variable {E : Host} {epoch : MembershipEpoch E}

/-! ## The ledger of a cursor -/

/-- What a cursor of schema v1 stands for: it recorded no counts, so a marker of it counts
as an announcement of what the first scan finds. -/
def legacySeed (scan : ScopedScan E) : List ℕ :=
  match scan.cursor.legacyMarkers with
  | some markers => if markers.any then [scan.ready.unreadCount] else []
  | none => []

/-- The counts a claim adds to the ledger. -/
def announced (scan : ScopedScan E) (claimed : Bool) : List ℕ :=
  if claimed then [scan.ready.unreadCount] else []

def stopGranted (options : HookNudgeClaimOptions) (claimed : Bool) : ℕ :=
  if options.marker = .stop ∧ claimed = true then 1 else 0

/-- The ledger so far is what the state remembers of it. -/
structure LedgerOf (s : NudgeCursorV3) (ledger : List ℕ) (stops : ℕ) : Prop where
  highest_eq : s.delivery.highestUnreadCount = highest ledger
  stops_eq : stops = if s.markers.stop = some s.cursorRevision then 1 else 0

/-- Neither a delivery nor a read has told this turn. -/
structure NotTold (s : NudgeCursorV3) (turn : NudgeDeliveryTurn) : Prop where
  delivery : s.delivery.lastTurn ≠ some turn
  informed : s.reads.informedTurn ≠ some turn

/-- Claims one after the other, at one revision, with the counts announced and the number
of Stop claims granted. The first cursor may have a ledger already; at the beginning of a
revision it is empty. Each claim scans a listing of its own. -/
inductive ClaimRun (epoch : MembershipEpoch E) (revision : ℕ) :
    Option NudgeCursor → List ℕ → ℕ → Prop
  | start {current : Option NudgeCursor} {v : VirtualCursor} {ledger : List ℕ} {stops : ℕ}
      (hv : virtualCursor epoch current = .ok v) (hrevision : v.state.cursorRevision = revision)
      (h : LedgerOf v.state ledger stops) : ClaimRun epoch revision current ledger stops
  | claim {current : Option NudgeCursor} {ledger : List ℕ} {stops : ℕ}
      (hrun : ClaimRun epoch revision current ledger stops) {files : List BarbaroFeedFile}
      {options : HookNudgeClaimOptions} {u : HookCursorUpdate (HookNudgeClaim E)}
      (h : claimHookNudge epoch files current options = .ok u) {scan : ScopedScan E}
      (hscan : scanUnread epoch none current files = .ok scan) :
      ClaimRun epoch revision (written current u)
        (ledger ++ legacySeed scan ++ announced scan u.result.claimed)
        (stops + stopGranted options u.result.claimed)

/-! ## One claim -/

/-- A cursor that is neither migrated nor new is the one on disk. -/
theorem virtualCursor_existing {current : Option NudgeCursor} {v : VirtualCursor}
    (h : virtualCursor epoch current = .ok v) (hreset : v.reset = false) (hexisted : v.existed = true) :
    current = some (.v3 v.state) := by
  rw [virtualCursor] at h
  split at h
  · next c hc =>
    cases h
    exact (Option.filter_eq_some_iff.1 hc).1
  · cases h; cases hreset
  · cases h; cases hreset
  · simp only [Outcome.guard_ok, Except.ok.injEq] at h
    obtain ⟨-, rfl⟩ := h
    simp only at hreset hexisted
    rw [hreset] at hexisted
    cases hexisted

/-- What a claim leaves, as the next transaction sees it. -/
theorem writeIfChanged_virtual {current : Option NudgeCursor} {scan : ScopedScan E} {α : Type}
    (hv : virtualCursor epoch current = .ok scan.cursor) {next : NudgeCursorV3} {timestamp : JsString}
    (hsame : sameMembership epoch (.v3 next) = true) {u : HookCursorUpdate α}
    (hu : u.state = writeIfChanged scan next timestamp) :
    ∃ updatedAt, virtualCursor epoch (written current u) =
      .ok ({ next with updatedAt } : NudgeCursorV3).virtual := by
  cases hw : writeIfChanged scan next timestamp with
  | some s =>
    refine ⟨timestamp, ?_⟩
    rw [written, hu, hw, writeIfChanged_some hw]
    exact virtualCursor_own hsame
  | none =>
    obtain ⟨hreset, hexisted, hstate⟩ := writeIfChanged_none hw
    refine ⟨scan.cursor.state.updatedAt, ?_⟩
    have hcurrent := virtualCursor_existing hv hreset hexisted
    rw [written, hu, hw, Option.map_none, Option.none_or, hcurrent, ← hstate]
    exact virtualCursor_own (virtualCursor_same hv)

variable (epoch) in
/-- The state a claim decides on: its high-water includes what a legacy marker stands for,
the rest of the ledger is as it was. -/
theorem claimState_ledger {scan : ScopedScan E} {options : HookNudgeClaimOptions}
    {start : NudgeCursorV3} {turn : NudgeDeliveryTurn} (h : claimState scan options = .ok (start, turn))
    {ledger : List ℕ} {stops : ℕ} (hledger : LedgerOf scan.cursor.state ledger stops)
    (hlegacy : scan.cursor.legacyMarkers.isSome = true →
      scan.cursor.state.delivery.highestUnreadCount = 0) (same : Bool) :
    LedgerOf (retireSuppression options start same) (ledger ++ legacySeed scan) stops ∧
      (retireSuppression options start same).cursorRevision = scan.cursor.state.cursorRevision ∧
      (retireSuppression options start same).markers = scan.cursor.state.markers ∧
      (sameMembership epoch (.v3 scan.cursor.state) = true →
        sameMembership epoch (.v3 (retireSuppression options start same)) = true) := by
  obtain ⟨s, hs, -, rfl⟩ := claimState_ok h
  obtain ⟨g, i, l, rfl⟩ := establishClaimTurn_turns hs
  obtain ⟨i', l', hretire⟩ := retireSuppression_turns options _ same
  rw [hretire]
  obtain ⟨hhigh, hstops⟩ := hledger
  cases hm : scan.cursor.legacyMarkers with
  | none =>
    refine ⟨⟨?_, hstops⟩, rfl, rfl, id⟩
    rw [legacySeed, hm, List.append_nil]
    exact hhigh
  | some markers =>
    refine ⟨⟨?_, hstops⟩, rfl, rfl, id⟩
    have hzero : highest ledger = 0 := by rw [← hhigh, hlegacy (by rw [hm]; rfl)]
    rw [legacySeed, hm, highest_append, hzero]
    simp only [NudgeCursorV3.withTurns, legacyDelivery]
    split
    · simp
    · rfl

variable (epoch) in
/-- The ledger after the decision. -/
theorem settleClaim_ledger (turn : NudgeDeliveryTurn) {options : HookNudgeClaimOptions}
    {scan : ScopedScan E} {s : NudgeCursorV3} {claimed : Bool} {ledger : List ℕ} {stops : ℕ}
    (hledger : LedgerOf s ledger stops) (hrevision : s.cursorRevision = scan.cursor.state.cursorRevision)
    (hpositive : claimed = true → 0 < scan.ready.unreadCount)
    (hlatch : claimed = true → options.marker = .stop → s.markers.stop ≠ some s.cursorRevision) :
    LedgerOf (settleClaim options scan s turn claimed) (ledger ++ announced scan claimed)
        (stops + stopGranted options claimed) ∧
      (settleClaim options scan s turn claimed).cursorRevision = s.cursorRevision ∧
      (sameMembership epoch (.v3 s) = true →
        sameMembership epoch (.v3 (settleClaim options scan s turn claimed)) = true) := by
  obtain ⟨hhigh, hstops⟩ := hledger
  cases claimed with
  | false =>
    have hkeep : LedgerOf (settleClaim options scan s turn false) ledger stops := by
      rw [settleClaim]
      split
      · exact ⟨hhigh, hstops⟩
      · exact ⟨hhigh, hstops⟩
    refine ⟨by simpa [announced, stopGranted] using hkeep, ?_, ?_⟩
    · rw [settleClaim]
      split <;> rfl
    · rw [settleClaim]
      split <;> exact id
  | true =>
    have hcount := hpositive rfl
    rw [settleClaim, if_neg (fun h => by omega), if_pos rfl]
    refine ⟨⟨?_, ?_⟩, rfl, id⟩
    · rw [highest_append, ← hhigh]
      simp [announced, collapseReadCursor]
    · by_cases hm : options.marker = .stop
      · have hopen := hlatch rfl hm
        rw [if_neg hopen] at hstops
        simp [hm, stopGranted, hstops, collapseReadCursor, hrevision]
      · simp only [hm, stopGranted, false_and, if_false, Nat.add_zero, hstops, collapseReadCursor]

/-- A cursor of schema v1 starts without a delivery. -/
theorem virtualCursor_legacy {current : Option NudgeCursor} {v : VirtualCursor}
    (h : virtualCursor epoch current = .ok v) (hl : v.legacyMarkers.isSome = true) :
    v.state.delivery.highestUnreadCount = 0 ∧ v.state.delivery.lastTurn = none := by
  rw [virtualCursor] at h
  split at h
  · cases h; cases hl
  · cases h; cases hl
  · cases h; exact ⟨rfl, rfl⟩
  · simp only [Outcome.guard_ok, Except.ok.injEq] at h
    obtain ⟨-, rfl⟩ := h
    exact ⟨rfl, rfl⟩

/-- What the cursor remembers of the turn of a claim still stands when the claim is
decided. -/
theorem claimState_stands {scan : ScopedScan E} {options : HookNudgeClaimOptions}
    {start : NudgeCursorV3} {turn : NudgeDeliveryTurn} (h : claimState scan options = .ok (start, turn))
    (hlegacy : scan.cursor.legacyMarkers.isSome = true → scan.cursor.state.delivery.lastTurn = none) :
    (scan.cursor.state.delivery.lastTurn = some turn → start.delivery.lastTurn = some turn) ∧
      (scan.cursor.state.reads.informedTurn = some turn → start.reads.informedTurn = some turn) := by
  obtain ⟨s, hs, hturn, rfl⟩ := claimState_ok h
  have hkeep : (scan.cursor.state.delivery.lastTurn = some turn → s.delivery.lastTurn = some turn) ∧
      (scan.cursor.state.reads.informedTurn = some turn → s.reads.informedTurn = some turn) := by
    rcases establishClaimTurn_ok hs with rfl | ⟨g, -, -, -, -, hkind, rfl⟩
    · exact ⟨id, id⟩
    · -- the turn is the new generation, which no marker of the cursor can name by being carried
      have hnew : turn = .claude (g + 1) := by
        cases ht : options.turn with
        | codex turnId => rw [ht] at hkind; cases hkind
        | _ =>
          rw [ht] at hturn
          simp only [currentDeliveryTurn, claudeGeneration, nextGeneration, Outcome.ok_bind,
            Outcome.pure_ok] at hturn
          exact hturn.symm
      have hold : some turn ≠ some (NudgeDeliveryTurn.claude g) := by
        rw [hnew]
        simp
      constructor
      · intro hlast
        simp only [nextGeneration, deliveryTurnsEqual, hlast, beq_eq_false_iff_ne.2 hold,
          Bool.and_false, Bool.false_eq_true, if_false]
      · intro hinformed
        simp only [nextGeneration, deliveryTurnsEqual, hinformed, beq_eq_false_iff_ne.2 hold,
          Bool.and_false, Bool.false_eq_true, if_false]
  cases hm : scan.cursor.legacyMarkers with
  | none => exact hkeep
  | some markers =>
    refine ⟨fun hlast => ?_, hkeep.2⟩
    rw [hlegacy (by rw [hm]; rfl)] at hlast
    cases hlast

/-- **What one claim does to the ledger**, and when it is granted. -/
theorem claim_ledger {files : List BarbaroFeedFile} {current : Option NudgeCursor}
    {options : HookNudgeClaimOptions} {u : HookCursorUpdate (HookNudgeClaim E)}
    (h : claimHookNudge epoch files current options = .ok u) {scan : ScopedScan E}
    (hscan : scanUnread epoch none current files = .ok scan) {ledger : List ℕ} {stops : ℕ}
    (hledger : LedgerOf scan.cursor.state ledger stops) :
    (∃ v, virtualCursor epoch (written current u) = .ok v ∧
      v.state.cursorRevision = scan.cursor.state.cursorRevision ∧
      LedgerOf v.state (ledger ++ legacySeed scan ++ announced scan u.result.claimed)
        (stops + stopGranted options u.result.claimed)) ∧
    (options.marker ≠ .stop → (u.result.claimed = true ↔ 0 < scan.ready.unreadCount ∧
      ∀ n ∈ ledger ++ legacySeed scan, n < scan.ready.unreadCount)) ∧
    (options.marker = .stop → u.result.claimed = true → options.stopContinuation = false ∧
      ∃ start turn, claimState scan options = .ok (start, turn) ∧ NotTold start turn ∧
        NotTold scan.cursor.state turn) := by
  obtain ⟨scan', start, state, turn, timestamp, hscan', hmade⟩ := claimHookNudge_ok h
  rw [hscan, Except.ok.injEq] at hscan'
  subst hscan'
  obtain ⟨v, hv, -, hcursor⟩ := scanUnread_ok hscan
  rw [← hcursor] at hv
  obtain ⟨hstate, hrevision, hmarkers, hsame⟩ := claimState_ledger epoch hmade.start_ok hledger
    (fun hl => (virtualCursor_legacy hv hl).1) (sameTurnDelivery start turn)
  rw [← hmade.state_eq] at hstate hrevision hmarkers hsame
  have hsame := hsame (virtualCursor_same hv)
  rcases hmade.update with ⟨hstop, -, hu, hclaimed⟩ | ⟨hopen, hclaimed, hu⟩
  · -- the latch is set, so nothing is granted
    obtain ⟨updatedAt, hv'⟩ := writeIfChanged_virtual hv hsame hu
    refine ⟨⟨_, hv', hrevision, ?_⟩, fun hne => absurd hstop hne, fun _ hc => by
      rw [hclaimed] at hc; cases hc⟩
    have hsame : LedgerOf ({ state with updatedAt } : NudgeCursorV3) (ledger ++ legacySeed scan) stops :=
      ⟨hstate.highest_eq, hstate.stops_eq⟩
    simpa [hclaimed, announced, stopGranted, NudgeCursorV3.virtual] using hsame
  · have hpositive : u.result.claimed = true → 0 < scan.ready.unreadCount := by
      intro hc
      rw [hclaimed, isClaimed, Bool.and_eq_true] at hc
      simpa using hc.1
    have hlatch : u.result.claimed = true → options.marker = .stop →
        state.markers.stop ≠ some state.cursorRevision := by
      intro _ hm hset
      exact hopen ⟨hm, by rw [hset, hrevision]⟩
    obtain ⟨hnext, hrevision', hsame'⟩ := settleClaim_ledger epoch turn hstate hrevision hpositive
      hlatch
    obtain ⟨updatedAt, hv'⟩ := writeIfChanged_virtual hv (hsame' hsame) hu
    refine ⟨⟨_, hv', hrevision'.trans hrevision, ⟨hnext.highest_eq, hnext.stops_eq⟩⟩, ?_, ?_⟩
    · intro hm
      rw [hclaimed, isClaimed, if_pos hm, Bool.and_eq_true, decide_eq_true_eq, decide_eq_true_eq,
        hstate.highest_eq]
      exact and_congr_right fun hn => highest_lt hn
    · intro hm hc
      rw [hclaimed, isClaimed, if_neg (not_not.2 hm)] at hc
      simp only [Bool.and_eq_true, Bool.not_eq_true', sameTurnDelivery, Bool.or_eq_false_iff,
        deliveryTurnsEqual, beq_eq_false_iff_ne] at hc
      obtain ⟨-, ⟨hlast, hinformed⟩, hcont⟩ := hc
      obtain ⟨hdelivery, hreads⟩ := claimState_stands hmade.start_ok
        (fun hl => (virtualCursor_legacy hv hl).2)
      exact ⟨hcont, start, turn, hmade.start_ok, ⟨hlast, hinformed⟩,
        ⟨fun hs => hlast (hdelivery hs), fun hs => hinformed (hreads hs)⟩⟩

/-- Every cursor of a run has the ledger of the run. -/
theorem ClaimRun.ledger {revision : ℕ} {current : Option NudgeCursor} {ledger : List ℕ} {stops : ℕ}
    (h : ClaimRun epoch revision current ledger stops) :
    ∃ v, virtualCursor epoch current = .ok v ∧ v.state.cursorRevision = revision ∧
      LedgerOf v.state ledger stops := by
  induction h with
  | start hv hrevision h => exact ⟨_, hv, hrevision, h⟩
  | claim hrun h hscan ih =>
    obtain ⟨v, hv, hrevision, hledger⟩ := ih
    obtain ⟨v', hv', -, hcursor⟩ := scanUnread_ok hscan
    rw [hv, Except.ok.injEq] at hv'
    subst hv'
    rw [← hcursor] at hrevision hledger
    obtain ⟨⟨v', hv', hrevision', hledger'⟩, -⟩ := claim_ledger h hscan hledger
    exact ⟨v', hv', hrevision'.trans hrevision, hledger'⟩

/-- **The announcement ledger.** Of the claims of one revision, an informational one is
granted exactly when the count is positive and exceeds all counts announced so far, where a
legacy marker stands for the present count; one Stop at most is granted; none in a Stop
continuation, or in a turn that was told already. -/
theorem announcement_ledger {revision : ℕ} {current : Option NudgeCursor} {ledger : List ℕ} {stops : ℕ}
    (hrun : ClaimRun epoch revision current ledger stops) {files : List BarbaroFeedFile}
    {options : HookNudgeClaimOptions} {u : HookCursorUpdate (HookNudgeClaim E)}
    (h : claimHookNudge epoch files current options = .ok u) {scan : ScopedScan E}
    (hscan : scanUnread epoch none current files = .ok scan) :
    scan.cursor.state.cursorRevision = revision ∧
    (options.marker ≠ .stop → (u.result.claimed = true ↔ 0 < scan.ready.unreadCount ∧
      ∀ n ∈ ledger ++ legacySeed scan, n < scan.ready.unreadCount)) ∧
    stops + stopGranted options u.result.claimed ≤ 1 ∧
    (options.marker = .stop → u.result.claimed = true → options.stopContinuation = false ∧
      ∃ start turn, claimState scan options = .ok (start, turn) ∧ NotTold start turn ∧
        NotTold scan.cursor.state turn) := by
  obtain ⟨v, hv, hrevision, hledger⟩ := hrun.ledger
  obtain ⟨v', hv', -, hcursor⟩ := scanUnread_ok hscan
  rw [hv, Except.ok.injEq] at hv'
  subst hv'
  rw [← hcursor] at hrevision hledger
  obtain ⟨⟨v', -, -, hnext⟩, hinformational, hstop⟩ := claim_ledger h hscan hledger
  refine ⟨hrevision, hinformational, ?_, hstop⟩
  rw [hnext.stops_eq]
  split
  · exact le_rfl
  · exact Nat.zero_le 1

end

/-! ## Claims of one peer's turn -/

/-- A prompt in the middle of a Codex turn. -/
def promptOptions : HookNudgeClaimOptions where
  marker := .userPrompt
  turn := .codex (sampleId "turn" 9)
  now := 1767225602000

/-- A cursor of schema v1 that has announced something at its revision. -/
def legacyCursor : NudgeCursorV1 where
  provider := js "codex"
  sessionId := sampleId "ses" 1
  workstreamId := sampleId "ws" 3
  membershipFrom := sampleTime "T00:00:00.000Z"
  cursorRevision := 1
  feedCursors := []
  markers := { userPrompt := some 1 }
  updatedAt := sampleTime "T00:00:01.000Z"

/-- What the claims on a fresh and on a legacy cursor compute. -/
theorem prompt_computed :
    (scanUnread helloEpoch none none [peerFeed "hi"]).toOption.map (fun s => s.ready.unreadCount) =
      some 1 ∧
    (claimHookNudge helloEpoch [peerFeed "hi"] none promptOptions).toOption.map
      (fun u => u.result.claimed) = some true ∧
    (scanUnread helloEpoch none none []).toOption.map (fun s => s.ready.unreadCount) = some 0 ∧
    (claimHookNudge helloEpoch [] none promptOptions).toOption.map (fun u => u.result.claimed) =
      some false ∧
    (scanUnread helloEpoch none (some (.v1 legacyCursor)) [peerFeed "hi"]).toOption.map
      (fun s => s.ready.unreadCount) = some 1 ∧
    (claimHookNudge helloEpoch [peerFeed "hi"] (some (.v1 legacyCursor)) promptOptions).toOption.map
      (fun u => u.result.claimed) = some false ∧
    (virtualCursor helloEpoch none).toOption.map (fun v => v.state.cursorRevision) = some 1 ∧
    (virtualCursor helloEpoch (some (.v1 legacyCursor))).toOption.map
      (fun v => (v.state.cursorRevision, v.state.delivery, v.state.markers)) =
        some (1, { highestUnreadCount := 0 }, {}) := by
  decide +kernel

theorem promptRun : ClaimRun helloEpoch 1 none [] 0 := by
  have hv : virtualCursor helloEpoch none = .ok _ := rfl
  exact .start hv rfl ⟨rfl, rfl⟩

theorem legacyRun : ClaimRun helloEpoch 1 (some (.v1 legacyCursor)) [] 0 := by
  obtain ⟨-, -, -, -, -, -, -, hv⟩ := prompt_computed
  obtain ⟨v, hv, hstate⟩ := Option.map_eq_some_iff.1 hv
  simp only [Prod.mk.injEq] at hstate
  obtain ⟨hrevision, hdelivery, hmarkers⟩ := hstate
  exact .start (Outcome.toOption_some.1 hv) hrevision ⟨by rw [hdelivery]; rfl, by rw [hmarkers]; rfl⟩

/-- The first prompt announces the one turn. -/
theorem announcement_ledger_prompt : ∃ u scan,
    claimHookNudge helloEpoch [peerFeed "hi"] none promptOptions = .ok u ∧
    scanUnread helloEpoch none none [peerFeed "hi"] = .ok scan ∧ scan.ready.unreadCount = 1 ∧
    (u.result.claimed = true ↔ 0 < scan.ready.unreadCount ∧
      ∀ n ∈ [] ++ legacySeed scan, n < scan.ready.unreadCount) := by
  obtain ⟨hcount, hclaim, -⟩ := prompt_computed
  obtain ⟨scan, hscan, hone⟩ := Option.map_eq_some_iff.1 hcount
  obtain ⟨u, hu, -⟩ := Option.map_eq_some_iff.1 hclaim
  have hscan := Outcome.toOption_some.1 hscan
  have hu := Outcome.toOption_some.1 hu
  obtain ⟨-, hgranted, -⟩ := announcement_ledger promptRun hu hscan
  exact ⟨u, scan, hu, hscan, hone, hgranted (by decide)⟩

/-- Nothing was announced in these runs, and the claim is not granted: the count is zero;
or it is not, but a marker of schema v1 stands in the way. -/
theorem announcement_withheld :
    (ClaimRun helloEpoch 1 none [] 0 ∧ ∃ u scan,
      claimHookNudge helloEpoch [] none promptOptions = .ok u ∧
      scanUnread helloEpoch none none [] = .ok scan ∧ scan.ready.unreadCount = 0 ∧
      u.result.claimed = false) ∧
    ClaimRun helloEpoch 1 (some (.v1 legacyCursor)) [] 0 ∧ ∃ u scan,
      claimHookNudge helloEpoch [peerFeed "hi"] (some (.v1 legacyCursor)) promptOptions = .ok u ∧
      scanUnread helloEpoch none (some (.v1 legacyCursor)) [peerFeed "hi"] = .ok scan ∧
      scan.ready.unreadCount = 1 ∧ u.result.claimed = false := by
  obtain ⟨-, -, hcount, hclaim, hcount', hclaim', -⟩ := prompt_computed
  obtain ⟨scan, hscan, hzero⟩ := Option.map_eq_some_iff.1 hcount
  obtain ⟨u, hu, hfalse⟩ := Option.map_eq_some_iff.1 hclaim
  obtain ⟨scan', hscan', hone⟩ := Option.map_eq_some_iff.1 hcount'
  obtain ⟨u', hu', hfalse'⟩ := Option.map_eq_some_iff.1 hclaim'
  exact ⟨⟨promptRun, u, scan, Outcome.toOption_some.1 hu, Outcome.toOption_some.1 hscan, hzero, hfalse⟩,
    legacyRun, u', scan', Outcome.toOption_some.1 hu', Outcome.toOption_some.1 hscan', hone, hfalse'⟩

end Barbaro
