import Barbaro.Nudge.ClaimSpec
import Barbaro.Nudge.ReadCommit

/-!
# What the transactions of a read do to the cursor

Inversion of reservation, staging, commit and discard.

* `reserve_ok`, `stage_ok`, `discard_ok`: they change the pending reads and nothing else.
* `commit_ok`: a commit does nothing, drops its pending read, or takes over its preview.
-/

namespace Barbaro

/-- Only the pending reads, and the time, may differ. -/
def PendingOnly (s s' : NudgeCursorV3) : Prop :=
  ∃ pending updatedAt, s' = { s.withPending pending with updatedAt }

theorem PendingOnly.positions {s s' : NudgeCursorV3} (h : PendingOnly s s') :
    s'.feedCursors = s.feedCursors ∧ s'.reads.coverage = s.reads.coverage := by
  obtain ⟨pending, updatedAt, rfl⟩ := h
  exact ⟨rfl, rfl⟩

section
variable {E : Host} {epoch : MembershipEpoch E} {files : List BarbaroFeedFile}
  {current : Option NudgeCursor}

theorem isoTimestamp_ok {t : ℤ} {s : JsString} (h : isoTimestamp E t = .ok s) :
    E.isoString t = some s := by
  rw [isoTimestamp] at h
  split at h
  · next s' hs => cases h; exact hs
  · cases h

/-- **A reservation that succeeds** adds one pending read to those that have not run out. -/
theorem reserve_ok {invocation : HookReadInvocation} {options : HookReadOptions E} {nonce : JsString}
    {u : HookCursorUpdate HookReadReservation}
    (h : reserveHookRead epoch files current invocation options nonce = .ok u) {s : NudgeCursorV3}
    (hs : u.state = some s) :
    ∃ scan turn createdAt expiresAt, scanUnread epoch none current files = .ok scan ∧
      currentDeliveryTurn scan.cursor.state options.turn = .ok turn ∧
      E.isoString options.now = some createdAt ∧
      E.isoString (options.now + readInvocationTtlMs) = some expiresAt ∧
      (livePending E options.now scan.cursor.state.reads.pending).length < maxPendingReads ∧
      (∀ p ∈ livePending E options.now scan.cursor.state.reads.pending,
        p.toolUseId ≠ invocation.toolUseId) ∧
      s = { scan.cursor.state.withPending
          (livePending E options.now scan.cursor.state.reads.pending ++
            [pendingEntry E invocation nonce turn createdAt expiresAt]) with updatedAt := createdAt } := by
  simp only [reserveHookRead, withHookCursor_ok] at h
  obtain ⟨scan, hscan, h⟩ := h
  rw [reserveScan] at h
  split at h
  · cases h; cases hs
  · simp only [Outcome.bind_ok] at h
    obtain ⟨turn, hturn, h⟩ := h
    split at h
    · simp only [Outcome.pure_ok] at h; subst h; cases hs
    · next hreplay =>
      split at h
      · simp only [Outcome.pure_ok] at h; subst h; cases hs
      · next hroom =>
        simp only [Outcome.bind_ok] at h
        obtain ⟨createdAt, hc, expiresAt, he, h⟩ := h
        split at h
        · simp only [Outcome.pure_ok] at h; subst h; cases hs
        · simp only [Outcome.pure_ok] at h
          subst h
          cases hs
          refine ⟨scan, turn, createdAt, expiresAt, hscan, hturn, isoTimestamp_ok hc,
            isoTimestamp_ok he, by omega, fun p hp hid => hreplay ?_, rfl⟩
          exact List.any_eq_true.2 ⟨p, hp, by simp [hid]⟩

/-- **A staging that succeeds** gives its pending read the canonical output. -/
theorem stage_ok {invocation : HookReadInvocation} {options : HookReadOptions E} {stdout : JsString}
    {u : HookCursorUpdate Bool}
    (h : stageHookReadOutput epoch files current invocation options stdout = .ok u) {s : NudgeCursorV3}
    (hs : u.state = some s) :
    ∃ scan pending output updatedAt, scanUnread epoch none current files = .ok scan ∧
      matchingPending scan.cursor.state invocation options = .ok (some pending) ∧
      parseDeliveredEnvelope E stdout invocation.query invocation.recipient pending.nonce = some output ∧
      E.isoString options.now = some updatedAt ∧
      s = { scan.cursor.state.withPending
          (withOutput pending.nonce output.text scan.cursor.state.reads.pending) with updatedAt } := by
  simp only [stageHookReadOutput, withHookCursor_ok, stageScan, Outcome.bind_ok] at h
  obtain ⟨scan, hscan, found, hfound, h⟩ := h
  cases found with
  | none => simp only [Outcome.pure_ok] at h; subst h; cases hs
  | some pending =>
    simp only at h
    split at h
    · simp only [Outcome.pure_ok] at h; subst h; cases hs
    · next output houtput =>
      split at h
      · simp only [Outcome.pure_ok] at h; subst h; cases hs
      · simp only [Outcome.bind_ok] at h
        obtain ⟨updatedAt, ht, h⟩ := h
        split at h
        · simp only [Outcome.pure_ok] at h
          subst h
          cases hs
          exact ⟨scan, pending, output, updatedAt, hscan, hfound, houtput, isoTimestamp_ok ht, rfl⟩
        · simp only [Outcome.pure_ok] at h; subst h; cases hs

/-- **A discard that succeeds** drops pending reads. -/
theorem discard_ok {toolUseId : JsString} {options : HookReadOptions E} {u : HookCursorUpdate Unit}
    (h : discardHookRead epoch files current toolUseId options = .ok u) {s : NudgeCursorV3}
    (hs : u.state = some s) :
    ∃ scan pending, scanUnread epoch none current files = .ok scan ∧
      pending.Sublist scan.cursor.state.reads.pending ∧ s = scan.cursor.state.withPending pending := by
  simp only [discardHookRead, withHookCursor_ok, Outcome.bind_ok] at h
  obtain ⟨scan, hscan, turn, -, h⟩ := h
  split at h
  · simp only [Outcome.pure_ok] at h; subst h; cases hs
  · simp only [Outcome.pure_ok] at h
    subst h
    cases hs
    exact ⟨scan, _, hscan, List.filter_sublist, rfl⟩

/-! ## Commits -/

/-- The text a commit delivers: the coverage of the envelope of its pending read. -/
def committedCoverage (state : NudgeCursorV3) (invocation : HookReadInvocation)
    (options : HookReadOptions E) (modelText : JsString) : List NudgeReadCoverage :=
  match matchingPending state invocation options with
  | .ok (some pending) =>
    ((committedEnvelope (E := E) invocation modelText pending).map DeliveredEnvelope.coverage).getD []
  | _ => []

/-- What a commit is made of, once its pending read and its envelope are found. -/
structure CommitMade (epoch : MembershipEpoch E) (filesBefore filesAfter : List BarbaroFeedFile)
    (invocation : HookReadInvocation) (options : HookReadOptions E) (modelText : JsString)
    (state : NudgeCursorV3) (pending : NudgePendingRead) (u : HookCursorUpdate HookReadCommit) :
    Prop where
  found : matchingPending state invocation options = .ok (some pending)
  outcome : u = refused state pending.nonce ∨
    ∃ preview, previewReadCoverage epoch filesBefore filesAfter state
        (committedCoverage state invocation options modelText) = .ok preview ∧
      applyPreview invocation options state pending.nonce preview = .ok u

/-- **A commit that succeeds**: nothing is committed, or a staged read is. -/
theorem commit_ok {verify : ReadQuery → DeliveredEnvelope → Except Failure Bool}
    {filesBefore filesAfter : List BarbaroFeedFile} {invocation : HookReadInvocation}
    {options : HookReadOptions E} {modelText : JsString} {u : HookCursorUpdate HookReadCommit}
    (h : commitHookReadOutput verify epoch files filesBefore filesAfter current invocation options
      modelText = .ok u) :
    ∃ scan, scanUnread epoch none current files = .ok scan ∧
      (u = notCommitted ∨ ∃ pending, CommitMade epoch filesBefore filesAfter invocation options modelText
        scan.cursor.state pending u) := by
  simp only [commitHookReadOutput, withHookCursor_ok, commitScan, Outcome.bind_ok] at h
  obtain ⟨scan, hscan, found, hfound, h⟩ := h
  refine ⟨scan, hscan, ?_⟩
  cases found with
  | none => simp only [Outcome.pure_ok] at h; exact .inl h.symm
  | some pending =>
    simp only at h
    cases henv : committedEnvelope (E := E) invocation modelText pending with
    | none => rw [henv] at h; simp only [Outcome.pure_ok] at h; exact .inl h.symm
    | some envelope =>
      have hcoverage : committedCoverage scan.cursor.state invocation options modelText =
          envelope.coverage := by
        rw [committedCoverage, hfound]
        simp only [henv, Option.map_some, Option.getD_some]
      rw [henv] at h
      simp only [Outcome.bind_ok] at h
      obtain ⟨verified, -, h⟩ := h
      split at h
      · simp only [Outcome.pure_ok] at h; exact .inl h.symm
      · refine .inr ⟨pending, hfound, ?_⟩
        rw [hcoverage]
        split at h
        · next preview hpreview => exact .inr ⟨preview, hpreview, h⟩
        · simp only [Outcome.pure_ok] at h; exact .inl h.symm
        · cases h

/-- What follows a preview: a refusal, a commit that adds nothing, or a new revision. -/
theorem applyPreview_ok {invocation : HookReadInvocation} {options : HookReadOptions E}
    {state : NudgeCursorV3} {nonce : JsString} {preview : ReadCoveragePreview}
    {u : HookCursorUpdate HookReadCommit}
    (h : applyPreview invocation options state nonce preview = .ok u) :
    (preview.selectedFeedUnavailable = true ∧ u.state = none ∧ u.result.committed = false ∧
        u.result.advanced = false) ∨
      (preview.selectedFeedUnavailable = false ∧ preview.advanced = false ∧ u.result.committed = true ∧
        u.result.advanced = false ∧ u.result.unreadCount = some preview.unreadCount ∧
        u.state = some (preview.state.withPending (withoutNonce nonce preview.state.reads.pending))) ∨
      (preview.selectedFeedUnavailable = false ∧ preview.advanced = true ∧ u = refused state nonce) ∨
      ∃ turn updatedAt, preview.selectedFeedUnavailable = false ∧ preview.advanced = true ∧
        state.cursorRevision + 1 ≤ maxSafeInteger ∧
        currentDeliveryTurn state options.turn = .ok turn ∧ E.isoString options.now = some updatedAt ∧
        u.result.committed = true ∧ u.result.advanced = true ∧
        u.result.unreadCount = some preview.unreadCount ∧
        readCoverageFits (advancedState invocation state preview nonce turn updatedAt) state
          preview.recovery = true ∧
        u.state = some (advancedState invocation state preview nonce turn updatedAt) := by
  rw [applyPreview] at h
  split at h
  · next hsel => cases h; exact .inl ⟨hsel, rfl, rfl, rfl⟩
  · next hsel =>
    rw [Bool.not_eq_true] at hsel
    split at h
    · next hadv =>
      cases h
      exact .inr (.inl ⟨hsel, by simpa using hadv, rfl, rfl, rfl, rfl⟩)
    · next hadv =>
      have hadv : preview.advanced = true := by simpa using hadv
      simp only [Outcome.guard_ok, Outcome.bind_ok, not_lt, gt_iff_lt] at h
      obtain ⟨hrev, turn, hturn, updatedAt, htime, h⟩ := h
      split at h
      · simp only [Outcome.pure_ok] at h
        exact .inr (.inr (.inl ⟨hsel, hadv, h.symm⟩))
      · next hfits =>
        simp only [Outcome.pure_ok] at h
        subst h
        exact .inr (.inr (.inr ⟨turn, updatedAt, hsel, hadv, hrev, hturn, isoTimestamp_ok htime, rfl,
          rfl, rfl, by simpa using hfits, rfl⟩))

end

end Barbaro
