import Barbaro.Core.Patterns
import Barbaro.Lib.Polling
import Barbaro.Nudge.Unread
import Mathlib.Algebra.Order.Archimedean.Real.Basic

/-!
# Awaiting a peer turn

`awaitUnreadPeerTurns` looks at the unread turns of one session until there are some or the deadline has passed.
A look may find them, may find the session without a cursor of this membership, or may fail; only so many looks
in a row may fail.

* `awaitBounds`: the options, checked.
* `awaitRound`: one look and what follows from it.
* `awaitRound_next`, `awaitRound_done`: the looks that the loop goes on after, and the verdicts.
* `await_sound`: the verdict of any sequence of looks.
-/

namespace Barbaro.Watch

def defaultAwaitTimeoutMs : ℤ := 600000
def maxAwaitTimeoutMs : ℤ := 3600000
def defaultWatchIntervalMs : ℤ := 2000
def watchMaxConsecutiveErrors : ℕ := 5

/-! ## Options -/

structure AwaitOptions where
  projectRoot : JsString
  provider : ParticipatingProvider
  /-- The stable id of the session. -/
  sessionId : JsString
  workstreamId : JsString
  membershipFrom : JsString
  timeoutMs : Option ℤ := none
  intervalMs : Option ℤ := none

inductive AwaitError
  | invalid (failure : Failure)
  /-- The joined session disappeared, or has not selected a workstream. -/
  | cursorUnavailable (joined : Bool)
  | cursorScope
  | scanFailureLimit (cause : Failure)

def AwaitError.message : AwaitError → Option String
  | .invalid _ => none
  | .cursorUnavailable false => some "barbaro await: session has not joined Barbaro"
  | .cursorUnavailable true => some "barbaro await: session has no workstream cursor"
  | .cursorScope => some "barbaro await: cursor belongs to a different workstream membership"
  | .scanFailureLimit _ => some "barbaro await: too many consecutive scan failures"

/-- The checked times, in milliseconds. -/
structure AwaitBounds where
  timeoutMs : ℤ
  intervalMs : ℤ
  timeout_pos : 0 < timeoutMs
  timeout_le : timeoutMs ≤ maxAwaitTimeoutMs
  interval_pos : 0 < intervalMs

def validateAwaitOptions (E : Host) (o : AwaitOptions) : Except AwaitError Unit :=
  if o.projectRoot.isEmpty then .error (.invalid (.typeError "projectRoot must not be empty"))
  else if !isSessionId o.sessionId then
    .error (.invalid (.typeError "sessionId must be a stable ses_<32 hex> session id"))
  else if !isWorkstreamId o.workstreamId then
    .error (.invalid (.typeError "workstreamId must be a stable ws_<32 hex> id"))
  else if (E.dateParse o.membershipFrom).isNone then
    .error (.invalid (.typeError "membershipFrom must be a valid date-time"))
  else .ok ()

/-- The options as the loop uses them. -/
def awaitBounds (E : Host) (o : AwaitOptions) : Except AwaitError AwaitBounds := do
  validateAwaitOptions E o
  let timeoutMs := o.timeoutMs.getD defaultAwaitTimeoutMs
  let intervalMs := o.intervalMs.getD defaultWatchIntervalMs
  if htimeout : 0 < timeoutMs ∧ timeoutMs ≤ maxSafeInteger then
    if hinterval : 0 < intervalMs ∧ intervalMs ≤ maxSafeInteger then
      if hmax : maxAwaitTimeoutMs < timeoutMs then
        .error (.invalid (.rangeError "timeoutMs must not exceed 3600000"))
      else .ok ⟨timeoutMs, intervalMs, htimeout.1, Int.not_lt.1 hmax, hinterval.1⟩
    else .error (.invalid (.typeError "intervalMs must be a positive safe integer"))
  else .error (.invalid (.typeError "timeoutMs must be a positive safe integer"))

/-! ## Looks -/

inductive UnreadPeerTurns (E : Host)
  | ready (unread : UnreadPeerTurnsReady E)
  | notJoined
  | workstreamPending

/-- What the inspection throws. -/
inductive InspectError
  | cursorUnavailable (joined : Bool)
  | cursorScope
  | other (cause : Failure)

/-- The inspection, and the time that is read after it. -/
structure AwaitLook (E : Host) where
  inspection : Except InspectError (UnreadPeerTurns E)
  now : ℚ

variable {E : Host}

/-- Where the stored cursor is of another membership, the turns are not inspected. -/
def inspectBoundCursor (o : AwaitOptions) (cursor : Except Failure (Option NudgeCursor))
    (inspect : Except Failure (UnreadPeerTurns E)) : Except InspectError (UnreadPeerTurns E) :=
  match cursor with
  | .error cause => .error (.other cause)
  | .ok cursor =>
    if cursor.any (fun c => c.workstreamId ≠ o.workstreamId ∨ c.membershipFrom ≠ o.membershipFrom) then .error .cursorScope
    else inspect.mapError .other

/-- `assertExpectedEpoch` passes. -/
def ExpectedEpoch (unread : UnreadPeerTurnsReady E) (o : AwaitOptions) : Prop :=
  unread.provider = o.provider ∧ unread.sessionId = o.sessionId ∧ unread.workstreamId = o.workstreamId ∧
    unread.membershipFrom = o.membershipFrom

instance (unread : UnreadPeerTurnsReady E) (o : AwaitOptions) : Decidable (ExpectedEpoch unread o) :=
  inferInstanceAs (Decidable (_ ∧ _ ∧ _ ∧ _))

structure AwaitUnreadEvent where
  provider : ParticipatingProvider
  sessionId : JsString
  workstreamId : JsString
  cursorRevision : ℕ
  unreadCount : ℕ
  coverage : Option FeedCoverageTracker
  outsideDeliveredWindow : Bool

def unreadEvent (unread : UnreadPeerTurnsReady E) (provider : ParticipatingProvider) : AwaitUnreadEvent where
  provider
  sessionId := unread.sessionId
  workstreamId := unread.workstreamId
  cursorRevision := unread.cursorRevision
  unreadCount := unread.unreadCount
  coverage := unread.coverage
  outsideDeliveredWindow := unread.outsideDeliveredWindow

inductive AwaitResult
  | unread (event : AwaitUnreadEvent)
  | timeout (timeoutMs : ℤ)
  | incomplete (timeoutMs : ℤ) (coverage : FeedCoverageTracker)

/-- What the `try` block leaves. -/
inductive AwaitScan
  | news (event : AwaitUnreadEvent)
  | ready (coverage : Option FeedCoverageTracker)
  | failed (consecutiveErrors : ℕ)

def awaitScan (o : AwaitOptions) (consecutiveErrors : ℕ) :
    Except InspectError (UnreadPeerTurns E) → Except AwaitError AwaitScan
  | .ok (.ready unread) =>
    if ¬ ExpectedEpoch unread o then .error .cursorScope
    else if 0 < unread.unreadCount then .ok (.news (unreadEvent unread o.provider))
    else .ok (.ready unread.coverage)
  | .ok .notJoined => .error (.cursorUnavailable false)
  | .ok .workstreamPending => .error (.cursorUnavailable true)
  | .error (.cursorUnavailable joined) => .error (.cursorUnavailable joined)
  | .error .cursorScope => .error .cursorScope
  | .error (.other cause) =>
    if watchMaxConsecutiveErrors ≤ consecutiveErrors + 1 then .error (.scanFailureLimit cause)
    else .ok (.failed (consecutiveErrors + 1))

/-! ## The loop -/

/-- What is left until the deadline. -/
def remaining (b : AwaitBounds) (started now : ℚ) : ℚ := started + b.timeoutMs - now

/-- How long the loop sleeps if it goes on. -/
def slept (b : AwaitBounds) (started now : ℚ) : ℚ :=
  if remaining b started now ≤ 0 then 0 else min (b.intervalMs : ℚ) (remaining b started now)

/-- The deadline has passed after a look that was ready. -/
def awaitTimeout (b : AwaitBounds) (coverage : Option FeedCoverageTracker) : AwaitResult :=
  match coverage with
  | some coverage => if coverage.incomplete then .incomplete b.timeoutMs coverage else .timeout b.timeoutMs
  | none => .timeout b.timeoutMs

/-- One round; the state is the number of looks in a row that failed. -/
def awaitRound (o : AwaitOptions) (b : AwaitBounds) (started : ℚ) (consecutiveErrors : ℕ) (look : AwaitLook E) :
    Loop.Round ℕ (Except AwaitError AwaitResult) :=
  match awaitScan o consecutiveErrors look.inspection with
  | .error e => .done (.error e)
  | .ok (.news event) => .done (.ok (.unread event))
  | .ok (.ready coverage) =>
    if remaining b started look.now ≤ 0 then .done (.ok (awaitTimeout b coverage)) else .next 0
  -- past the deadline the loop looks again at once
  | .ok (.failed consecutiveErrors) => .next consecutiveErrors

/-- `awaitUnreadPeerTurns` ends with this verdict, after the look with this number if the options are valid. -/
def AwaitEnds (o : AwaitOptions) (started : ℚ) (looks : ℕ → AwaitLook E) (n : ℕ)
    (verdict : Except AwaitError AwaitResult) : Prop :=
  match awaitBounds E o with
  | .error e => verdict = .error e
  | .ok b => Polling.EndsAt (awaitRound o b started) 0 looks n verdict

/-- The clock advances by at least what the loop slept. -/
def AwaitClock (o : AwaitOptions) (b : AwaitBounds) (started : ℚ) (looks : ℕ → AwaitLook E) : Prop :=
  ∀ n errors, Polling.after (awaitRound o b started) 0 looks (n + 1) = .next errors →
    (looks n).now + slept b started (looks n).now ≤ (looks (n + 1)).now

/-! ## The kinds of looks -/

namespace AwaitLook

/-- Unread turns of the bound membership. -/
def News (o : AwaitOptions) (look : AwaitLook E) (unread : UnreadPeerTurnsReady E) : Prop :=
  look.inspection = .ok (.ready unread) ∧ ExpectedEpoch unread o ∧ 0 < unread.unreadCount

/-- No unread turns of the bound membership, as far as the feeds could be read. -/
def Quiet (o : AwaitOptions) (look : AwaitLook E) (coverage : Option FeedCoverageTracker) : Prop :=
  ∃ unread, look.inspection = .ok (.ready unread) ∧ ExpectedEpoch unread o ∧ unread.unreadCount = 0 ∧
    unread.coverage = coverage

/-- The stores could not be scanned. -/
def Failed (look : AwaitLook E) : Prop := ∃ cause, look.inspection = .error (.other cause)

/-- The session is not joined or has no cursor, or the cursor is of another membership. -/
inductive Foreign (o : AwaitOptions) (look : AwaitLook E) : AwaitError → Prop
  | notJoined (h : look.inspection = .ok .notJoined) : Foreign o look (.cursorUnavailable false)
  | workstreamPending (h : look.inspection = .ok .workstreamPending) : Foreign o look (.cursorUnavailable true)
  | thrownUnavailable {joined : Bool} (h : look.inspection = .error (.cursorUnavailable joined)) :
    Foreign o look (.cursorUnavailable joined)
  | thrownScope (h : look.inspection = .error .cursorScope) : Foreign o look .cursorScope
  | epoch {unread : UnreadPeerTurnsReady E} (h : look.inspection = .ok (.ready unread))
    (hepoch : ¬ ExpectedEpoch unread o) : Foreign o look .cursorScope

end AwaitLook

/-! ## One round -/

section
variable {o : AwaitOptions} {b : AwaitBounds} {started : ℚ} {errors : ℕ} {look : AwaitLook E}

/-- Every look is of one kind. -/
theorem look_cases (o : AwaitOptions) (look : AwaitLook E) :
    (∃ unread, look.News o unread) ∨ (∃ coverage, look.Quiet o coverage) ∨ look.Failed ∨ ∃ e, look.Foreign o e := by
  rcases hlook : look.inspection with thrown | found
  · cases thrown with
    | cursorUnavailable joined => exact .inr (.inr (.inr ⟨_, .thrownUnavailable hlook⟩))
    | cursorScope => exact .inr (.inr (.inr ⟨_, .thrownScope hlook⟩))
    | other cause => exact .inr (.inr (.inl ⟨cause, hlook⟩))
  · cases found with
    | ready unread =>
      by_cases hepoch : ExpectedEpoch unread o
      · rcases Nat.eq_zero_or_pos unread.unreadCount with hzero | hpos
        · exact .inr (.inl ⟨_, unread, hlook, hepoch, hzero, rfl⟩)
        · exact .inl ⟨unread, hlook, hepoch, hpos⟩
      · exact .inr (.inr (.inr ⟨_, .epoch hlook hepoch⟩))
    | notJoined => exact .inr (.inr (.inr ⟨_, .notJoined hlook⟩))
    | workstreamPending => exact .inr (.inr (.inr ⟨_, .workstreamPending hlook⟩))

theorem awaitRound_news {unread : UnreadPeerTurnsReady E} (h : look.News o unread) :
    awaitRound o b started errors look = .done (.ok (.unread (unreadEvent unread o.provider))) := by
  obtain ⟨hlook, hepoch, hpos⟩ := h
  simp [awaitRound, awaitScan, hlook, hepoch, hpos]

theorem awaitRound_quiet {coverage : Option FeedCoverageTracker} (h : look.Quiet o coverage) :
    awaitRound o b started errors look =
      if started + b.timeoutMs ≤ look.now then .done (.ok (awaitTimeout b coverage)) else .next 0 := by
  obtain ⟨unread, hlook, hepoch, hzero, rfl⟩ := h
  simp [awaitRound, awaitScan, hlook, hepoch, hzero, remaining]

theorem awaitRound_failed {cause : Failure} (h : look.inspection = .error (.other cause)) :
    awaitRound o b started errors look =
      if watchMaxConsecutiveErrors ≤ errors + 1 then .done (.error (.scanFailureLimit cause))
      else .next (errors + 1) := by
  simp only [awaitRound, awaitScan, h]
  by_cases hlimit : watchMaxConsecutiveErrors ≤ errors + 1
  · simp only [if_pos hlimit]
  · simp only [if_neg hlimit]

theorem awaitRound_foreign {e : AwaitError} (h : look.Foreign o e) :
    awaitRound o b started errors look = .done (.error e) := by
  cases h with
  | notJoined h => simp [awaitRound, awaitScan, h]
  | workstreamPending h => simp [awaitRound, awaitScan, h]
  | thrownUnavailable h => simp [awaitRound, awaitScan, h]
  | thrownScope h => simp [awaitRound, awaitScan, h]
  | epoch h hepoch => simp [awaitRound, awaitScan, h, hepoch]

/-- **The looks that the loop goes on after**: a quiet one before the deadline, or a failed one below the limit. -/
theorem awaitRound_next {errors' : ℕ} (h : awaitRound o b started errors look = .next errors') :
    (∃ coverage, look.Quiet o coverage ∧ look.now < started + b.timeoutMs ∧ errors' = 0) ∨
      look.Failed ∧ errors' = errors + 1 ∧ errors' < watchMaxConsecutiveErrors := by
  rcases look_cases o look with ⟨unread, hnews⟩ | ⟨coverage, hquiet⟩ | ⟨cause, hfailed⟩ | ⟨e, hforeign⟩
  · rw [awaitRound_news hnews] at h
    cases h
  · rw [awaitRound_quiet hquiet] at h
    split at h
    · cases h
    · next hbefore =>
      cases h
      exact .inl ⟨coverage, hquiet, lt_of_not_ge hbefore, rfl⟩
  · rw [awaitRound_failed hfailed] at h
    split at h
    · cases h
    · next hlimit =>
      cases h
      exact .inr ⟨⟨cause, hfailed⟩, rfl, Nat.lt_of_not_le hlimit⟩
  · rw [awaitRound_foreign hforeign] at h
    cases h

theorem AwaitLook.Failed.not_quiet (h : look.Failed) {coverage : Option FeedCoverageTracker} :
    ¬ look.Quiet o coverage := by
  rintro ⟨unread, hlook, -⟩
  obtain ⟨cause, hfailed⟩ := h
  rw [hfailed] at hlook
  cases hlook

end

/-! ## Failures in a row -/

/-- The looks up to this one failed so often in a row that the loop gives up. -/
def FailedRun (looks : ℕ → AwaitLook E) (m : ℕ) : Prop :=
  watchMaxConsecutiveErrors ≤ m + 1 ∧ ∀ i ≤ m, m < i + watchMaxConsecutiveErrors → (looks i).Failed

/-- The state counts the failed looks that came last. -/
structure Counted (looks : ℕ → AwaitLook E) (n errors : ℕ) : Prop where
  below : errors < watchMaxConsecutiveErrors
  le : errors ≤ n
  failed : ∀ i < n, n ≤ i + errors → (looks i).Failed
  last : ∀ i, i + errors + 1 = n → ¬ (looks i).Failed

section
variable {o : AwaitOptions} {b : AwaitBounds} {started : ℚ} {looks : ℕ → AwaitLook E}

theorem counted_start (looks : ℕ → AwaitLook E) : Counted looks 0 0 where
  below := by decide
  le := Nat.le_refl 0
  failed i hi := absurd hi (Nat.not_lt_zero i)
  last i hi := by omega

/-- A quiet look starts the count again, a failed one adds to it. -/
theorem counted_next {n errors errors' : ℕ} (h : Counted looks n errors)
    (hround : awaitRound o b started errors (looks n) = .next errors') : Counted looks (n + 1) errors' := by
  rcases awaitRound_next hround with ⟨coverage, hquiet, -, rfl⟩ | ⟨hfailed, rfl, hbelow⟩
  · refine ⟨by decide, Nat.zero_le _, fun i hi hle => by omega, fun i hi hfailed => ?_⟩
    obtain rfl : i = n := by omega
    exact hfailed.not_quiet hquiet
  · refine ⟨hbelow, Nat.succ_le_succ h.le, fun i hi hle => ?_, fun i hi => h.last i (by omega)⟩
    rcases Nat.lt_succ_iff_lt_or_eq.1 hi with hlt | rfl
    · exact h.failed i hlt (by omega)
    · exact hfailed

theorem counted {n errors : ℕ} (h : Polling.after (awaitRound o b started) 0 looks n = .next errors) :
    Counted looks n errors :=
  Polling.after_invariant (I := Counted looks) (counted_start looks) (fun _ _ _ => counted_next) h

/-- **The limit is reached** after as many failures in a row. -/
theorem Counted.failedRun_iff {n errors : ℕ} (h : Counted looks n errors) :
    FailedRun looks n ↔ (looks n).Failed ∧ watchMaxConsecutiveErrors ≤ errors + 1 := by
  have hbelow := h.below
  constructor
  · rintro ⟨hmany, hfailed⟩
    refine ⟨hfailed n (Nat.le_refl n) (by rw [watchMaxConsecutiveErrors]; omega), ?_⟩
    by_contra hfew
    -- the look before those that are counted did not fail
    refine h.last (n - errors - 1) (by omega) (hfailed _ (by omega) (by omega))
  · rintro ⟨hfailed, hmany⟩
    have hle := h.le
    refine ⟨by omega, fun i hi hlast => ?_⟩
    rcases Nat.lt_or_eq_of_le hi with hlt | rfl
    · exact h.failed i hlt (by omega)
    · exact hfailed

/-! ## Every run -/

/-- **The loop ends.** -/
theorem await_ends (hclock : AwaitClock o b started looks) :
    ∃ n verdict, Polling.EndsAt (awaitRound o b started) 0 looks n verdict := by
  have hadvances : Polling.Advances (awaitRound o b started) 0 looks AwaitLook.now (started + b.timeoutMs)
      (b.intervalMs : ℚ) := by
    intro n errors hnext
    have hslept := hclock n errors hnext
    rw [slept] at hslept
    split at hslept
    · next hlate =>
      rw [remaining] at hlate
      refine (min_le_left _ _).trans ?_
      linarith
    · rcases min_choice (b.intervalMs : ℚ) (remaining b started (looks n).now) with hmin | hmin
      · rw [hmin] at hslept
        exact (min_le_right _ _).trans hslept
      · rw [hmin, remaining] at hslept
        refine (min_le_left _ _).trans ?_
        linarith
  refine Polling.ends hadvances (Int.cast_pos.2 b.interval_pos) (I := fun errors => errors < watchMaxConsecutiveErrors)
    (by decide) (fun errors look errors' _ hround => ?_) (fun errors => watchMaxConsecutiveErrors - errors)
    (fun errors look errors' hbelow hlate hround => ?_)
  · rcases awaitRound_next hround with ⟨-, -, -, rfl⟩ | ⟨-, -, hlt⟩
    · decide
    · exact hlt
  · rcases awaitRound_next hround with ⟨-, -, hbefore, -⟩ | ⟨-, rfl, -⟩
    · exact absurd hlate (not_le_of_gt hbefore)
    · omega

theorem awaitTimeout_timeout {coverage : Option FeedCoverageTracker} {t : ℤ} :
    awaitTimeout b coverage = .timeout t ↔ t = b.timeoutMs ∧ coverage.any FeedCoverageTracker.incomplete = false := by
  cases coverage with
  | none => simp [awaitTimeout, eq_comm]
  | some coverage =>
    cases hincomplete : coverage.incomplete
    · simp [awaitTimeout, hincomplete, eq_comm]
    · simp [awaitTimeout, hincomplete]

theorem awaitTimeout_incomplete {coverage : Option FeedCoverageTracker} {t : ℤ} {c : FeedCoverageTracker} :
    awaitTimeout b coverage = .incomplete t c ↔ t = b.timeoutMs ∧ coverage = some c ∧ c.incomplete = true := by
  cases coverage with
  | none => simp [awaitTimeout]
  | some coverage =>
    rw [awaitTimeout]
    split
    · next hincomplete =>
      constructor
      · intro h
        cases h
        exact ⟨rfl, rfl, hincomplete⟩
      · rintro ⟨rfl, hsome, -⟩
        rw [Option.some.inj hsome]
    · next hcomplete =>
      constructor
      · intro h
        cases h
      · rintro ⟨-, hsome, hincomplete⟩
        rw [Option.some.inj hsome] at hcomplete
        exact absurd hincomplete hcomplete

theorem awaitTimeout_ne_unread (b : AwaitBounds) (coverage : Option FeedCoverageTracker) (event : AwaitUnreadEvent) :
    awaitTimeout b coverage ≠ .unread event := by
  unfold awaitTimeout
  split
  · split
    · exact nofun
    · exact nofun
  · exact nofun

/-- **The verdicts.** -/
theorem awaitRound_done {errors : ℕ} {look : AwaitLook E} {verdict : Except AwaitError AwaitResult}
    (h : awaitRound o b started errors look = .done verdict) :
    (∃ unread, look.News o unread ∧ verdict = .ok (.unread (unreadEvent unread o.provider))) ∨
      (∃ coverage, look.Quiet o coverage ∧ started + b.timeoutMs ≤ look.now ∧
        verdict = .ok (awaitTimeout b coverage)) ∨
      (∃ cause, look.inspection = .error (.other cause) ∧ watchMaxConsecutiveErrors ≤ errors + 1 ∧
        verdict = .error (.scanFailureLimit cause)) ∨
      ∃ e, look.Foreign o e ∧ verdict = .error e := by
  rcases look_cases o look with ⟨unread, hnews⟩ | ⟨coverage, hquiet⟩ | ⟨cause, hfailed⟩ | ⟨e, hforeign⟩
  · rw [awaitRound_news hnews] at h
    cases h
    exact .inl ⟨unread, hnews, rfl⟩
  · rw [awaitRound_quiet hquiet] at h
    split at h
    · next hlate =>
      cases h
      exact .inr (.inl ⟨coverage, hquiet, hlate, rfl⟩)
    · cases h
  · rw [awaitRound_failed hfailed] at h
    split at h
    · next hlimit =>
      cases h
      exact .inr (.inr (.inl ⟨cause, hfailed, hlimit, rfl⟩))
    · cases h
  · rw [awaitRound_foreign hforeign] at h
    cases h
    exact .inr (.inr (.inr ⟨e, hforeign, rfl⟩))

theorem AwaitLook.Foreign.ne_limit {look : AwaitLook E} {cause : Failure} : ¬ look.Foreign o (.scanFailureLimit cause) :=
  nofun

variable {n : ℕ} {verdict : Except AwaitError AwaitResult}

/-- The loop ends with the first news. -/
theorem ends_news (h : Polling.EndsAt (awaitRound o b started) 0 looks n verdict) {m : ℕ} (hm : m ≤ n) :
    (∃ unread, (looks m).News o unread) ↔ m = n ∧ ∃ event, verdict = .ok (.unread event) := by
  constructor
  · rintro ⟨unread, hnews⟩
    rcases Nat.lt_or_eq_of_le hm with hlt | rfl
    · obtain ⟨errors, errors', -, hround⟩ := h.goes_on hlt
      rw [awaitRound_news hnews] at hround
      cases hround
    · obtain ⟨errors, -, hround⟩ := h
      rw [awaitRound_news hnews] at hround
      cases hround
      exact ⟨rfl, _, rfl⟩
  · rintro ⟨rfl, event, rfl⟩
    obtain ⟨errors, -, hround⟩ := h
    rcases awaitRound_done hround with ⟨unread, hnews, -⟩ | ⟨coverage, -, -, heq⟩ | ⟨_, -, -, heq⟩ | ⟨_, -, heq⟩
    · exact ⟨unread, hnews⟩
    · exact absurd (Except.ok.inj heq).symm (awaitTimeout_ne_unread b coverage event)
    · cases heq
    · cases heq

/-- The loop ends with the first foreign look. -/
theorem ends_foreign (h : Polling.EndsAt (awaitRound o b started) 0 looks n verdict) {m : ℕ} (hm : m ≤ n)
    {e : AwaitError} (hforeign : (looks m).Foreign o e) : m = n ∧ verdict = .error e := by
  rcases Nat.lt_or_eq_of_le hm with hlt | rfl
  · obtain ⟨errors, errors', -, hround⟩ := h.goes_on hlt
    rw [awaitRound_foreign hforeign] at hround
    cases hround
  · obtain ⟨errors, -, hround⟩ := h
    rw [awaitRound_foreign hforeign] at hround
    cases hround
    exact ⟨rfl, rfl⟩

/-- The loop gives up where the limit is reached. -/
theorem ends_failedRun (h : Polling.EndsAt (awaitRound o b started) 0 looks n verdict) {m : ℕ} (hm : m ≤ n) :
    FailedRun looks m ↔ m = n ∧ ∃ cause, verdict = .error (.scanFailureLimit cause) := by
  constructor
  · intro hrun
    rcases Nat.lt_or_eq_of_le hm with hlt | rfl
    · obtain ⟨errors, errors', hafter, hround⟩ := h.goes_on hlt
      obtain ⟨hfailed, hlimit⟩ := (counted hafter).failedRun_iff.1 hrun
      rcases awaitRound_next hround with ⟨coverage, hquiet, -⟩ | ⟨-, rfl, hbelow⟩
      · exact absurd hquiet hfailed.not_quiet
      · omega
    · obtain ⟨errors, hafter, hround⟩ := h
      obtain ⟨⟨cause, hfailed⟩, hlimit⟩ := (counted hafter).failedRun_iff.1 hrun
      rw [awaitRound_failed hfailed, if_pos hlimit] at hround
      cases hround
      exact ⟨rfl, cause, rfl⟩
  · rintro ⟨rfl, cause, rfl⟩
    obtain ⟨errors, hafter, hround⟩ := h
    rcases awaitRound_done hround with ⟨_, -, heq⟩ | ⟨_, -, -, heq⟩ | ⟨cause', hfailed, hlimit, -⟩ | ⟨e, hforeign, heq⟩
    · cases heq
    · cases heq
    · exact (counted hafter).failedRun_iff.2 ⟨⟨cause', hfailed⟩, hlimit⟩
    · cases heq
      exact absurd hforeign AwaitLook.Foreign.ne_limit

/-- A result that is no news is given past the deadline after a quiet look. -/
theorem ends_quiet (h : Polling.EndsAt (awaitRound o b started) 0 looks n verdict) {result : AwaitResult}
    (hresult : ∀ event, result ≠ .unread event) :
    verdict = .ok result ↔ started + b.timeoutMs ≤ (looks n).now ∧
      ∃ coverage, (looks n).Quiet o coverage ∧ awaitTimeout b coverage = result := by
  obtain ⟨errors, -, hround⟩ := h
  constructor
  · rintro rfl
    rcases awaitRound_done hround with ⟨unread, -, heq⟩ | ⟨coverage, hquiet, hlate, heq⟩ | ⟨_, -, -, heq⟩ | ⟨_, -, heq⟩
    · exact absurd (Except.ok.inj heq) (hresult _)
    · exact ⟨hlate, coverage, hquiet, (Except.ok.inj heq).symm⟩
    · cases heq
    · cases heq
  · rintro ⟨hlate, coverage, hquiet, rfl⟩
    rw [awaitRound_quiet hquiet, if_pos hlate] at hround
    cases hround
    rfl

/-- **The verdict of await is sound**: it ends, with news exactly at the first look that has any, with silence only
after a quiet look past the deadline, with a failure exactly at the limit, and at the first foreign look. -/
theorem await_sound (hb : awaitBounds E o = .ok b) (hclock : AwaitClock o b started looks) :
    (∃ n verdict, AwaitEnds o started looks n verdict) ∧
      ∀ n verdict, AwaitEnds o started looks n verdict →
        (∀ m ≤ n, (∃ unread, (looks m).News o unread) ↔ m = n ∧ ∃ event, verdict = .ok (.unread event)) ∧
        (∀ t, verdict = .ok (.timeout t) ↔ t = b.timeoutMs ∧ started + b.timeoutMs ≤ (looks n).now ∧
          ∃ coverage, (looks n).Quiet o coverage ∧ coverage.any FeedCoverageTracker.incomplete = false) ∧
        (∀ t c, verdict = .ok (.incomplete t c) ↔ t = b.timeoutMs ∧ started + b.timeoutMs ≤ (looks n).now ∧
          (looks n).Quiet o (some c) ∧ c.incomplete = true) ∧
        (∀ m ≤ n, FailedRun looks m ↔ m = n ∧ ∃ cause, verdict = .error (.scanFailureLimit cause)) ∧
        ∀ m ≤ n, ∀ e, (looks m).Foreign o e → m = n ∧ verdict = .error e := by
  have hends : ∀ n verdict, AwaitEnds o started looks n verdict ↔
      Polling.EndsAt (awaitRound o b started) 0 looks n verdict := by
    intro n verdict
    rw [AwaitEnds, hb]
  simp only [hends]
  refine ⟨await_ends hclock, fun n verdict h => ⟨fun m hm => ends_news h hm, fun t => ?_, fun t c => ?_,
    fun m hm => ends_failedRun h hm, fun m hm e hforeign => ends_foreign h hm hforeign⟩⟩
  · rw [ends_quiet h (fun _ heq => AwaitResult.noConfusion heq)]
    constructor
    · rintro ⟨hlate, coverage, hquiet, heq⟩
      obtain ⟨ht, hcomplete⟩ := awaitTimeout_timeout.1 heq
      exact ⟨ht, hlate, coverage, hquiet, hcomplete⟩
    · rintro ⟨ht, hlate, coverage, hquiet, hcomplete⟩
      exact ⟨hlate, coverage, hquiet, awaitTimeout_timeout.2 ⟨ht, hcomplete⟩⟩
  · rw [ends_quiet h (fun _ heq => AwaitResult.noConfusion heq)]
    constructor
    · rintro ⟨hlate, coverage, hquiet, heq⟩
      obtain ⟨ht, rfl, hincomplete⟩ := awaitTimeout_incomplete.1 heq
      exact ⟨ht, hlate, hquiet, hincomplete⟩
    · rintro ⟨ht, hlate, hquiet, hincomplete⟩
      exact ⟨hlate, some c, hquiet, awaitTimeout_incomplete.2 ⟨ht, rfl, hincomplete⟩⟩

end

/-! ## A store that cannot be scanned -/

def awaitHost : Host := Host.ofTables [] [(0, js "1970-01-01T00:00:00.000Z")] epochDate_ok

def shortAwait : AwaitOptions where
  projectRoot := js "/p"
  provider := .codex
  sessionId := js "ses_00000000000000000000000000000000"
  workstreamId := js "ws_00000000000000000000000000000000"
  membershipFrom := js "1970-01-01T00:00:00.000Z"
  timeoutMs := some 1

def shortBounds : AwaitBounds := ⟨1, defaultWatchIntervalMs, by decide, by decide, by decide⟩

/-- Every look fails, and comes a millisecond after the one before. -/
def failingLooks (n : ℕ) : AwaitLook awaitHost := ⟨.error (.other (.system "EIO")), n⟩

/-- A deadline of one millisecond ends no scan that fails; the limit does. -/
theorem await_sound_failing :
    awaitBounds awaitHost shortAwait = .ok shortBounds ∧ AwaitClock shortAwait shortBounds 0 failingLooks ∧
      ∃ n verdict, AwaitEnds shortAwait 0 failingLooks n verdict := by
  have hbounds : awaitBounds awaitHost shortAwait = .ok shortBounds := rfl
  have hclock : AwaitClock shortAwait shortBounds 0 failingLooks := by
    intro n errors _
    have hslept : slept shortBounds 0 (failingLooks n).now ≤ 1 := by
      have hstart : (0 : ℚ) ≤ n := Nat.cast_nonneg n
      rw [slept]
      split
      · exact zero_le_one
      · refine (min_le_right _ _).trans ?_
        simp only [remaining, shortBounds, failingLooks]
        push_cast
        linarith
    simp only [failingLooks] at hslept ⊢
    push_cast
    linarith
  exact ⟨hbounds, hclock, (await_sound hbounds hclock).1⟩

end Barbaro.Watch
