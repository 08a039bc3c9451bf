import Barbaro.Nudge.Run
import Barbaro.Nudge.WritesValid

/-!
# Runs over a cursor file

The cursor file of one session, from one the validator accepts, of any schema, or from
none, through any order of transactions. Each runs in the membership of its moment, over
the listings it sees.

* `CursorRun.stored`: the file always reads back, as a valid cursor.
* `transaction_valid`: one transaction proposes nothing the validator refuses.
* `cursor_writer_valid`: so it is over whole runs, and what is written reads back equal.
-/

namespace Barbaro

section
variable (E : Host) (provider : ParticipatingProvider) (sessionId : JsString)

/-- A transaction on a cursor, and the receipts its result gives. A rollback has a receipt
of an earlier claim; the nonce of a reservation is fresh. -/
inductive CursorTransaction (receipts : List HookStopClaimRollback) (current : Option NudgeCursor) :
    (α : Type) → (Option NudgeCursor → Except Failure (HookCursorUpdate α)) →
      (α → List HookStopClaimRollback) → Prop
  | claim (epoch : MembershipEpoch E) (hp : epoch.provider = provider) (hs : epoch.sessionId = sessionId)
      (files : List BarbaroFeedFile) (hfiles : Listed files) (options : HookNudgeClaimOptions) :
      CursorTransaction receipts current (HookNudgeClaim E)
        (fun c => claimHookNudge epoch files c options) (fun r => r.receipt.toList)
  | rollback (receipt : HookStopClaimRollback) (hreceipt : receipt ∈ receipts) (now : ℤ) :
      CursorTransaction receipts current Bool (fun c => rollbackHookStopClaim E c receipt now)
        (fun _ => [])
  | reserve (epoch : MembershipEpoch E) (hp : epoch.provider = provider) (hs : epoch.sessionId = sessionId)
      (files : List BarbaroFeedFile) (hfiles : Listed files) (invocation : HookReadInvocation)
      (options : HookReadOptions E) (ho : options.provider = provider) (nonce : JsString)
      (hnonce : isNonce nonce = true)
      (hfresh : ∀ c, current = some (.v3 c) → ∀ p ∈ c.reads.pending, p.nonce ≠ nonce) :
      CursorTransaction receipts current HookReadReservation
        (fun c => reserveHookRead epoch files c invocation options nonce) (fun _ => [])
  | stage (epoch : MembershipEpoch E) (hp : epoch.provider = provider) (hs : epoch.sessionId = sessionId)
      (files : List BarbaroFeedFile) (hfiles : Listed files) (invocation : HookReadInvocation)
      (options : HookReadOptions E) (stdout : JsString) :
      CursorTransaction receipts current Bool
        (fun c => stageHookReadOutput epoch files c invocation options stdout) (fun _ => [])
  | commit (epoch : MembershipEpoch E) (hp : epoch.provider = provider) (hs : epoch.sessionId = sessionId)
      (files filesBefore filesAfter : List BarbaroFeedFile) (hfiles : Listed files)
      (hbefore : Listed filesBefore) (hafter : Listed filesAfter)
      (verify : ReadQuery → DeliveredEnvelope → Except Failure Bool) (invocation : HookReadInvocation)
      (options : HookReadOptions E) (ho : options.provider = provider) (modelText : JsString) :
      CursorTransaction receipts current HookReadCommit
        (fun c => commitHookReadOutput verify epoch files filesBefore filesAfter c invocation options
          modelText) (fun _ => [])
  | discard (epoch : MembershipEpoch E) (hp : epoch.provider = provider) (hs : epoch.sessionId = sessionId)
      (files : List BarbaroFeedFile) (hfiles : Listed files) (toolUseId : JsString)
      (options : HookReadOptions E) :
      CursorTransaction receipts current Unit
        (fun c => discardHookRead epoch files c toolUseId options) (fun _ => [])

/-- The cursor file of a session, and the receipts its claims have given. A transaction
that throws leaves both as they are. -/
inductive CursorRun : Option Bytes → List HookStopClaimRollback → Prop
  | start (file : Option Bytes) (current : Option NudgeCursor)
      (h : readCursor E provider sessionId file = .ok current) : CursorRun file []
  | step {file file' : Option Bytes} {receipts : List HookStopClaimRollback}
      {current : Option NudgeCursor} (hrun : CursorRun file receipts)
      (hread : readCursor E provider sessionId file = .ok current) {α : Type}
      {operation : Option NudgeCursor → Except Failure (HookCursorUpdate α)}
      {gives : α → List HookStopClaimRollback}
      (htx : CursorTransaction E provider sessionId receipts current α operation gives) {result : α}
      (h : withHookWrite E provider sessionId file operation = .ok (file', result)) :
      CursorRun file' (receipts ++ gives result)

end

section
variable {E : Host} {provider : ParticipatingProvider} {sessionId : JsString}
  {receipts : List HookStopClaimRollback} {current : Option NudgeCursor}

variable (provider receipts current) in
/-- Every receipt restores an announcement the present generation allows. -/
def ReceiptsOk : Prop :=
  ∀ r ∈ receipts, ∃ c, current = some (.v3 c) ∧ DeliveryOk provider c.claudeTurnGeneration r.before

theorem readCursor_ok {file : Option Bytes} (h : readCursor E provider sessionId file = .ok current) :
    StoredOk E current provider sessionId := by
  intro c hc
  subst hc
  cases file with
  | none => cases h
  | some bytes =>
    simp only [readCursor, Outcome.guard_ok, Outcome.bind_ok, Outcome.pure_ok, Option.some.injEq] at h
    obtain ⟨-, c', hparse, rfl⟩ := h
    exact parseCursor_ok hparse

/-- **One transaction** proposes only valid cursors, and the receipts it gives are good for
what it proposes. -/
theorem transaction_valid (hcurrent : StoredOk E current provider sessionId)
    (hreceipts : ReceiptsOk provider receipts current) {α : Type}
    {operation : Option NudgeCursor → Except Failure (HookCursorUpdate α)}
    {gives : α → List HookStopClaimRollback}
    (htx : CursorTransaction E provider sessionId receipts current α operation gives)
    {u : HookCursorUpdate α} (h : operation current = .ok u) :
    (∀ s, u.state = some s → CursorOk E provider sessionId s ∧ Follows current s) ∧
      ∀ r ∈ gives u.result, ∃ s, u.state = some s ∧
        DeliveryOk provider s.claudeTurnGeneration r.before := by
  cases htx with
  | claim epoch hp hs files hfiles options =>
    subst hp hs
    refine ⟨fun s => claim_valid hcurrent hfiles h, fun r hr => ?_⟩
    exact claim_receipt hcurrent hfiles h (Option.mem_toList.1 hr)
  | rollback receipt hreceipt now =>
    refine ⟨fun s hs => ?_, fun r hr => by cases hr⟩
    have hgood : ∀ c, current = some (.v3 c) →
        DeliveryOk provider c.claudeTurnGeneration receipt.before := by
      intro c hc
      obtain ⟨c', hc', hd⟩ := hreceipts receipt hreceipt
      rw [hc] at hc'
      cases hc'
      exact hd
    exact rollback_valid hcurrent hgood h hs
  | reserve epoch hp hs files hfiles invocation options ho nonce hnonce hfresh =>
    subst hp hs
    exact ⟨fun s => reserve_valid hcurrent hfiles ho hnonce hfresh h, fun r hr => by cases hr⟩
  | stage epoch hp hs files hfiles invocation options stdout =>
    subst hp hs
    exact ⟨fun s => stage_valid hcurrent hfiles h, fun r hr => by cases hr⟩
  | commit epoch hp hs files filesBefore filesAfter hfiles hbefore hafter verify invocation options ho
      modelText =>
    subst hp hs
    exact ⟨fun s => commit_valid hcurrent hfiles hbefore hafter ho h, fun r hr => by cases hr⟩
  | discard epoch hp hs files hfiles toolUseId options =>
    subst hp hs
    exact ⟨fun s => discard_valid hcurrent hfiles h, fun r hr => by cases hr⟩

/-- What the writer does with a valid state: it replaces the file, unless the state is too
large for it. -/
theorem withHookWrite_valid {file : Option Bytes}
    (hread : readCursor E provider sessionId file = .ok current) {α : Type}
    {operation : Option NudgeCursor → Except Failure (HookCursorUpdate α)} {u : HookCursorUpdate α}
    (hu : operation current = .ok u) {s : NudgeCursorV3} (hs : u.state = some s)
    (hok : CursorOk E provider sessionId s) :
    withHookWrite E provider sessionId file operation =
      if nudgeCursorFits s then .ok (some (utf8 (cursorText s)), u.result)
      else .error (.rangeError "Barbaro nudge cursor exceeds 1048576 bytes") := by
  unfold withHookWrite
  simp only [hread, hu, Outcome.ok_bind, hs, assertCursorIdentity_ok hok]
  by_cases hfits : nudgeCursorFits s = true
  · simp only [hfits, Bool.not_true, Bool.false_eq_true, if_false, if_true]
    rfl
  · simp only [hfits, Bool.not_false, if_true]
    rfl

/-- What a transaction that succeeds leaves in the file. -/
theorem withHookWrite_ok {file file' : Option Bytes}
    (hread : readCursor E provider sessionId file = .ok current) {α : Type}
    {operation : Option NudgeCursor → Except Failure (HookCursorUpdate α)} {result : α}
    (h : withHookWrite E provider sessionId file operation = .ok (file', result)) :
    ∃ u, operation current = .ok u ∧ u.result = result ∧
      ((u.state = none ∧ file' = file) ∨
        ∃ s, u.state = some s ∧ nudgeCursorFits s = true ∧ file' = some (utf8 (cursorText s))) := by
  unfold withHookWrite at h
  simp only [hread, Outcome.ok_bind, Outcome.bind_ok] at h
  obtain ⟨u, hu, h⟩ := h
  refine ⟨u, hu, ?_⟩
  cases hs : u.state with
  | none =>
    simp only [hs, Outcome.pure_ok, Prod.mk.injEq] at h
    exact ⟨h.2, .inl ⟨rfl, h.1.symm⟩⟩
  | some s =>
    simp only [hs, Outcome.bind_ok, Outcome.exists_unit, Outcome.guard_ok, Outcome.pure_ok,
      Prod.mk.injEq] at h
    obtain ⟨-, hfits, hfile, hresult⟩ := h
    exact ⟨hresult, .inr ⟨s, rfl, by simpa using hfits, hfile.symm⟩⟩

/-- **The file always reads back** as a valid cursor, or there is none, and the receipts
that are out are good for it. -/
theorem CursorRun.stored {file : Option Bytes} (h : CursorRun E provider sessionId file receipts) :
    ∃ current, readCursor E provider sessionId file = .ok current ∧
      StoredOk E current provider sessionId ∧ ReceiptsOk provider receipts current := by
  induction h with
  | start file current hread =>
    exact ⟨current, hread, readCursor_ok hread, fun r hr => by cases hr⟩
  | @step file file' receipts current hrun hread α operation gives htx result h ih =>
    obtain ⟨current', hread', hcurrent, hreceipts⟩ := ih
    rw [hread] at hread'
    cases hread'
    obtain ⟨u, hu, rfl, hfile⟩ := withHookWrite_ok hread h
    obtain ⟨hvalid, hgives⟩ := transaction_valid hcurrent hreceipts htx hu
    rcases hfile with ⟨hnone, rfl⟩ | ⟨s, hs, hfits, rfl⟩
    · refine ⟨current, hread, hcurrent, fun r hr => ?_⟩
      rcases List.mem_append.1 hr with hr | hr
      · exact hreceipts r hr
      · -- a receipt comes with a state to write
        obtain ⟨s, hs, -⟩ := hgives r hr
        rw [hnone] at hs
        cases hs
    · obtain ⟨hok, hfollows⟩ := hvalid s hs
      have hback := readCursor_written hok hfits
      refine ⟨some (.v3 s), hback, readCursor_ok hback, fun r hr => ?_⟩
      rcases List.mem_append.1 hr with hr | hr
      · obtain ⟨c, hc, hd⟩ := hreceipts r hr
        exact ⟨s, rfl, hd.mono (hfollows c hc)⟩
      · obtain ⟨s', hs', hd⟩ := hgives r hr
        rw [hs] at hs'
        cases hs'
        exact ⟨s, rfl, hd⟩

/-- **The cursor writer stays inside its own validator**: over every run, what the next
transaction proposes is valid and passes the checks of the writer, and once it is written
the file reads back to an equal cursor. -/
theorem cursor_writer_valid {file : Option Bytes} (hrun : CursorRun E provider sessionId file receipts) :
    ∃ current, readCursor E provider sessionId file = .ok current ∧
      ∀ (α : Type) (operation : Option NudgeCursor → Except Failure (HookCursorUpdate α))
        (gives : α → List HookStopClaimRollback) (u : HookCursorUpdate α) (s : NudgeCursorV3),
        CursorTransaction E provider sessionId receipts current α operation gives →
          operation current = .ok u → u.state = some s →
          CursorOk E provider sessionId s ∧
            assertCursorIdentity E provider sessionId s = .ok () ∧
            withHookWrite E provider sessionId file operation =
              (if nudgeCursorFits s then .ok (some (utf8 (cursorText s)), u.result)
               else .error (.rangeError "Barbaro nudge cursor exceeds 1048576 bytes")) ∧
            (nudgeCursorFits s = true →
              readCursor E provider sessionId (some (utf8 (cursorText s))) = .ok (some (.v3 s))) := by
  obtain ⟨current, hread, hcurrent, hreceipts⟩ := hrun.stored
  refine ⟨current, hread, fun α operation gives u s htx hu hs => ?_⟩
  obtain ⟨hvalid, -⟩ := transaction_valid hcurrent hreceipts htx hu
  obtain ⟨hok, -⟩ := hvalid s hs
  exact ⟨hok, assertCursorIdentity_ok hok, withHookWrite_valid hread hu hs hok,
    readCursor_written hok⟩

/-- The first claim of a session whose peer has one turn writes a cursor. -/
theorem cursor_writer_valid_first :
    ∃ u s, claimHookNudge helloEpoch [peerFeed "hi"] none
        { marker := .stop, turn := .codex (sampleId "turn" 1), now := 1767225602000 } = .ok u ∧
      u.state = some s ∧ CursorOk sampleHost .codex (sampleId "ses" 1) s := by
  have hsome : ((claimHookNudge helloEpoch [peerFeed "hi"] none
      { marker := .stop, turn := .codex (sampleId "turn" 1), now := 1767225602000 }).toOption.bind
        HookCursorUpdate.state).isSome = true := by decide +kernel
  obtain ⟨s, hs⟩ := Option.isSome_iff_exists.1 hsome
  obtain ⟨u, hu, hstate⟩ := Option.bind_eq_some_iff.1 hs
  have hclaim := Outcome.toOption_some.1 hu
  refine ⟨u, s, hclaim, hstate, ?_⟩
  obtain ⟨current, hread, hvalid⟩ := cursor_writer_valid
    (CursorRun.start none none rfl : CursorRun sampleHost .codex (sampleId "ses" 1) none [])
  cases hread
  have hfiles : Listed [peerFeed "hi"] := ⟨List.nodup_singleton _, by decide⟩
  exact (hvalid _ _ _ u s (.claim helloEpoch rfl rfl [peerFeed "hi"] hfiles
    { marker := .stop, turn := .codex (sampleId "turn" 1), now := 1767225602000 }) hclaim hstate).1

end

end Barbaro
