import Barbaro.Nudge.Unread
import Barbaro.Runner.ClaudeRecords

/-!
# What a hook reads of a Codex trace

A Codex trace names its session in one of its first lines, and the turns as they start. The hooks
read the identity alone, or the identity together with the turn that started last and whether the
trace is whole.

* `readCodexTraceIdentity`, `readCodexTurnAttestation`: the two readers.
* `Attests`: what an attestation says of the bytes of a trace.
* `startedTurns_append`: a trace that grows goes on with the turns it has started.
* `attestation_grows`: what was attested is attested again of the grown trace.
-/

namespace Barbaro.Codex

open Claude (stringField isIsoDateTime)

/-! ## Records -/

structure CodexEnvelope where
  timestamp : JsString
  type : JsString
  payload : Json
  ordinal : Option ℤ

structure CodexTraceIdentity where
  nativeSessionId : JsString
  nativeThreadId : JsString
  historyMode : JsString
  workspaceRoot : Option JsString
  deriving DecidableEq, Repr

/-- `!Number.isSafeInteger(value.ordinal) || value.ordinal < 0` -/
def ordinalRefused : Json → Bool
  | .num (.int n) => decide (n < 0)
  | _ => true

def decodeCodexEnvelope (E : Host) (value : Json) : Except String CodexEnvelope :=
  if !isObject (some value) then .error "rollout line is not an object"
  else
    match (textAt? "timestamp" value).filter (isIsoDateTime E) with
    | none => .error "rollout timestamp is missing or invalid"
    | some timestamp =>
      match stringField "type" value with
      | none => .error "rollout type is missing or invalid"
      | some type =>
        match value.get (js "payload") with
        | none => .error "rollout payload is missing"
        | some payload =>
          if (value.get (js "ordinal")).any ordinalRefused then .error "rollout ordinal is invalid"
          else .ok {
            timestamp, type, payload
            ordinal := (value.get (js "ordinal")).bind fun
              | .num (.int n) => some n
              | _ => none }

def codexTraceIdentityFromRecord (value : Json) : Option CodexTraceIdentity :=
  if !isObject (some value) || textAt? "type" value != some (js "session_meta") then none
  else do
    let payload ← (value.get (js "payload")).filter fun v => isObject (some v)
    let sessionId ← (stringField "session_id" payload).or (stringField "id" payload)
    return {
      nativeSessionId := sessionId
      nativeThreadId := (stringField "id" payload).getD sessionId
      historyMode := (stringField "history_mode" payload).getD (js "legacy")
      workspaceRoot := stringField "cwd" payload }

/-- The turn that a record starts. -/
def startedTurn (E : Host) (value : Json) : Option JsString :=
  match decodeCodexEnvelope E value with
  | .error _ => none
  | .ok envelope =>
    if envelope.type ≠ js "event_msg" || !isObject (some envelope.payload) then none
    else
      let eventType := stringField "type" envelope.payload
      if eventType ≠ some (js "task_started") && eventType ≠ some (js "turn_started") then none
      else stringField "turn_id" envelope.payload

/-! ## The two readers -/

/-- The lines that may name the session: a prefix of bounded size. -/
def maxIdentityBytes : ℕ := 256 * 1024

def maxIdentityLines : ℕ := 64

/-- The line lies past the prefix. -/
def pastIdentity (line : JsonlLine Json) : Bool :=
  decide (maxIdentityBytes < line.byteEndExclusive) || decide (maxIdentityLines < line.lineNumber)

/-- The value of a line that is a record. -/
def recordOf (line : JsonlLine Json) : Option Json :=
  match line.kind with
  | .record value => some value
  | .malformed _ => none

/-- The loop of `readCodexTraceIdentity`, with how the iteration ends. -/
def identityLoop : List (JsonlLine Json) → Except Failure Unit → Except Failure (Option CodexTraceIdentity)
  | [], .ok _ => .ok none
  | [], .error f => .error f
  | line :: lines, ending =>
    if pastIdentity line then .ok none
    else
      match (recordOf line).bind codexTraceIdentityFromRecord with
      | some identity => .ok (some identity)
      | none => identityLoop lines ending

structure CodexTurnAttestation where
  identity : Option CodexTraceIdentity
  latestStartedTurnId : Option JsString
  malformedLines : ℕ
  partialFinalLine : Bool
  deriving DecidableEq, Repr

/-- What the reader of an attestation has seen. -/
structure AttestationScan where
  identity : Option CodexTraceIdentity := none
  latestStartedTurnId : Option JsString := none

section
variable (E : Host)

def readCodexTraceIdentity (source : JsonlSource) : Except Failure (Option CodexTraceIdentity) :=
  let read := iterateJsonlForward (parseJson E) E.toHasher {} source
  identityLoop read.events (read.result.map fun _ => ())

def attestLine (st : AttestationScan) (line : JsonlLine Json) : AttestationScan :=
  match recordOf line with
  | none => st
  | some value =>
    { identity :=
        if st.identity.isNone && !pastIdentity line then codexTraceIdentityFromRecord value else st.identity
      latestStartedTurnId := (startedTurn E value).or st.latestStartedTurnId }

def readCodexTurnAttestation (source : JsonlSource) : Except Failure CodexTurnAttestation :=
  let read := iterateJsonlForward (parseJson E) E.toHasher { pinEnd := true } source
  match read.result with
  | .error f => .error f
  | .ok summary =>
    let st := read.events.foldl (attestLine E) {}
    .ok {
      identity := st.identity
      latestStartedTurnId := st.latestStartedTurnId
      malformedLines := summary.malformedLines
      partialFinalLine := summary.partialFinalLine.isSome }

/-! ## What they say of the bytes -/

/-- The complete lines of a trace. -/
def traceLines (trace : Bytes) : List (JsonlLine Json) := placeLines (parseJson E) 1 0 (Lines.cut LF trace).1

/-- The turns that a trace has started, in their order. -/
def startedTurns (trace : Bytes) : List JsString :=
  (traceLines E trace).filterMap fun line => (recordOf line).bind (startedTurn E)

/-- The first identity in the lines that may name it. -/
def identityIn : List (JsonlLine Json) → Option CodexTraceIdentity
  | [] => none
  | line :: lines =>
    if pastIdentity line then none
    else ((recordOf line).bind codexTraceIdentityFromRecord).or (identityIn lines)

/-- The attestation is that of the bytes. -/
structure Attests (trace : Bytes) (attestation : CodexTurnAttestation) : Prop where
  identity : attestation.identity = identityIn (traceLines E trace)
  latest : attestation.latestStartedTurnId = (startedTurns E trace).getLast?
  malformed : attestation.malformedLines = (traceLines E trace).countP fun line => !line.isRecord
  tail : attestation.partialFinalLine = false ↔ (Lines.cut LF trace).2 = []

end

section
variable {E : Host}

/-! ## Lines -/

theorem lineEvent_place (parse : JsString → Except JsonlLineError Json) (n o : ℕ) (l : Bytes) :
    (lineEvent parse n o l).lineNumber = n ∧ (lineEvent parse n o l).byteEndExclusive = o + l.length + 1 := by
  unfold lineEvent
  dsimp only
  split
  · exact ⟨rfl, rfl⟩
  · split
    · exact ⟨rfl, rfl⟩
    · exact ⟨rfl, rfl⟩

/-- The lines after one that lies past the prefix do so too. -/
inductive Ordered : List (JsonlLine Json) → Prop
  | nil : Ordered []
  | cons {line : JsonlLine Json} {lines : List (JsonlLine Json)}
      (h : pastIdentity line = true → ∀ later ∈ lines, pastIdentity later = true) (hrest : Ordered lines) :
      Ordered (line :: lines)

theorem pastIdentity_placeLines {parse : JsString → Except JsonlLineError Json} {n o : ℕ} {ls : List Bytes}
    (h : maxIdentityBytes < o ∨ maxIdentityLines < n) : ∀ line ∈ placeLines parse n o ls, pastIdentity line = true := by
  induction ls generalizing n o with
  | nil => simp [placeLines]
  | cons l ls ih =>
    intro line hline
    rcases List.mem_cons.1 hline with rfl | hline
    · obtain ⟨hnumber, hbytes⟩ := lineEvent_place parse n o l
      simp only [pastIdentity, Bool.or_eq_true, decide_eq_true_eq]
      omega
    · exact ih (by omega) line hline

theorem ordered_placeLines (parse : JsString → Except JsonlLineError Json) (n o : ℕ) (ls : List Bytes) :
    Ordered (placeLines parse n o ls) := by
  induction ls generalizing n o with
  | nil => exact .nil
  | cons l ls ih =>
    refine .cons ?_ (ih _ _)
    intro hpast
    obtain ⟨hnumber, hbytes⟩ := lineEvent_place parse n o l
    simp only [pastIdentity, Bool.or_eq_true, decide_eq_true_eq] at hpast
    apply pastIdentity_placeLines
    omega

/-- What stands past the prefix names no session. -/
theorem identityIn_past {lines : List (JsonlLine Json)} (h : ∀ line ∈ lines, pastIdentity line = true) :
    identityIn lines = none := by
  cases lines with
  | nil => rfl
  | cons line lines => rw [identityIn, if_pos (h line List.mem_cons_self)]

theorem identityIn_append {a b : List (JsonlLine Json)} {identity : CodexTraceIdentity} (h : identityIn a = some identity) :
    identityIn (a ++ b) = some identity := by
  induction a with
  | nil => cases h
  | cons line a ih =>
    rw [List.cons_append, identityIn]
    rw [identityIn] at h
    split at h
    · cases h
    · next hpast =>
      rw [if_neg hpast]
      cases hown : (recordOf line).bind codexTraceIdentityFromRecord with
      | some own =>
        rw [hown, Option.some_or] at h
        rw [Option.some_or, h]
      | none =>
        rw [hown, Option.none_or] at h
        rw [Option.none_or, ih h]

/-- **A trace that grows** keeps its complete lines. -/
theorem traceLines_append (trace more : Bytes) :
    ∃ lines, traceLines E (trace ++ more) = traceLines E trace ++ lines := by
  rw [traceLines, traceLines, Lines.cut_append, placeLines_append]
  exact ⟨_, rfl⟩

/-- **A trace that grows** goes on with the turns it has started. -/
theorem startedTurns_append (trace more : Bytes) :
    ∃ turns, startedTurns E (trace ++ more) = startedTurns E trace ++ turns := by
  obtain ⟨lines, hlines⟩ := @traceLines_append E trace more
  refine ⟨lines.filterMap fun line => (recordOf line).bind (startedTurn E), ?_⟩
  rw [startedTurns, hlines, List.filterMap_append, startedTurns]

/-! ## The readers -/

theorem attestLine_identity (st : AttestationScan) {lines : List (JsonlLine Json)} (h : Ordered lines) :
    (lines.foldl (attestLine E) st).identity = st.identity.or (identityIn lines) := by
  induction h generalizing st with
  | nil => simp [identityIn]
  | @cons line lines hpast hrest ih =>
    rw [List.foldl_cons, ih, identityIn]
    unfold attestLine
    by_cases hline : pastIdentity line = true
    · have hnone := identityIn_past (hpast hline)
      rw [if_pos hline, hnone]
      cases recordOf line with
      | none => rfl
      | some value => simp [hline]
    · rw [if_neg hline]
      cases hrecord : recordOf line with
      | none => simp
      | some value => cases hidentity : st.identity <;> simp [hline]

theorem attestLine_latest (st : AttestationScan) (lines : List (JsonlLine Json)) :
    (lines.foldl (attestLine E) st).latestStartedTurnId =
      ((lines.filterMap fun line => (recordOf line).bind (startedTurn E)).getLast?).or st.latestStartedTurnId := by
  induction lines generalizing st with
  | nil => simp
  | cons line lines ih =>
    rw [List.foldl_cons, ih]
    unfold attestLine
    cases hrecord : recordOf line with
    | none => simp [hrecord]
    | some value =>
      cases hturn : startedTurn E value with
      | none => simp [hrecord, hturn]
      | some turn =>
        cases hlast : (lines.filterMap fun line => (recordOf line).bind (startedTurn E)).getLast? with
        | none => simp [hrecord, hturn, List.getLast?_eq_none_iff.1 hlast]
        | some last => simp [hrecord, hturn, List.getLast?_cons, hlast]

theorem identityLoop_found {lines : List (JsonlLine Json)} {identity : CodexTraceIdentity}
    (h : identityIn lines = some identity) (ending : Except Failure Unit) :
    identityLoop lines ending = .ok (some identity) := by
  induction lines with
  | nil => cases h
  | cons line lines ih =>
    rw [identityIn] at h
    rw [identityLoop]
    split at h
    · cases h
    · next hpast =>
      rw [if_neg hpast]
      cases hown : (recordOf line).bind codexTraceIdentityFromRecord with
      | some own =>
        rw [hown, Option.some_or] at h
        rw [h]
      | none =>
        rw [hown, Option.none_or] at h
        exact ih h

/-- What the loop returns is what the lines name. -/
theorem identityLoop_ok {lines : List (JsonlLine Json)} {ending : Except Failure Unit} {found : Option CodexTraceIdentity}
    (h : identityLoop lines ending = .ok found) : found = identityIn lines := by
  cases hidentity : identityIn lines with
  | some identity =>
    rw [identityLoop_found hidentity] at h
    cases h
    rfl
  | none =>
    induction lines with
    | nil =>
      cases ending with
      | ok _ =>
        cases h
        rfl
      | error _ => cases h
    | cons line lines ih =>
      rw [identityIn] at hidentity
      rw [identityLoop] at h
      split at h
      · cases h
        rfl
      · next hpast =>
        rw [if_neg hpast, Option.or_eq_none_iff] at hidentity
        rw [hidentity.1] at h
        exact ih h hidentity.2

/-- The lines that the reader of the identity is given, once the trace is open. -/
theorem identity_events {source : JsonlSource} {endOffset : Option ℕ}
    (hopen : openChecks {} source.opened = .ok endOffset) :
    (iterateJsonlForward (parseJson E) E.toHasher {} source).events = traceLines E source.chunks.flatten := by
  -- nothing is pinned, so the stream is read to its end
  obtain rfl : endOffset = none := by
    unfold openChecks at hopen
    rw [Outcome.bind_ok] at hopen
    obtain ⟨-, -, hopen⟩ := hopen
    split at hopen
    · cases hopen
    · cases hopen
    · rw [Outcome.guard_ok] at hopen
      obtain ⟨-, hopen⟩ := hopen
      simp only [Outcome.bind_ok, Outcome.guard_ok, Outcome.pure_ok] at hopen
      obtain ⟨-, -, -, -, -, rfl⟩ := hopen
      rfl
  obtain ⟨ended, hrun⟩ := (consumeChunks_spec (parseJson E) none none source.chunks (.initial {})
    (by simp [ScanState.initial]) (by simp [Fits]) rfl (by simp)).1 (by simp [AllFit, Fits])
  unfold iterateJsonlForward
  rw [hopen]
  simp only [if_neg (show ¬ (none : Option ℕ) = some 0 by simp)]
  rw [hrun]
  rfl

/-- **The reader of the identity** finds what the lines of the trace name. -/
theorem readCodexTraceIdentity_ok {source : JsonlSource} {found : Option CodexTraceIdentity}
    (h : readCodexTraceIdentity E source = .ok found) : found = identityIn (traceLines E source.chunks.flatten) := by
  cases hopen : openChecks {} source.opened with
  | error f =>
    unfold readCodexTraceIdentity iterateJsonlForward at h
    rw [hopen] at h
    cases h
  | ok endOffset =>
    have hevents := @identity_events E source endOffset hopen
    unfold readCodexTraceIdentity at h
    dsimp only at h
    rw [hevents] at h
    exact identityLoop_ok h

/-- **The attestation** is that of the bytes that were there when the trace was opened. -/
theorem readCodexTurnAttestation_attests {source : JsonlSource} {attestation : CodexTurnAttestation}
    (hend : source.WithinEnd { pinEnd := true }) (h : readCodexTurnAttestation E source = .ok attestation) :
    Attests E source.chunks.flatten attestation := by
  unfold readCodexTurnAttestation at h
  dsimp only at h
  split at h
  · cases h
  · next summary hresult =>
    have hread : iterateJsonlForward (parseJson E) E.toHasher { pinEnd := true } source =
        { events := (iterateJsonlForward (parseJson E) E.toHasher { pinEnd := true } source).events
          result := .ok summary } := by
      rw [← hresult]
    rw [read_ok _ _ hend] at hread
    obtain ⟨-, -, hevents, hclose⟩ := hread
    obtain ⟨-, snapshot, anchor, -, -, -, -, rfl⟩ := closeRead_ok.1 hclose
    cases h
    rw [hevents]
    refine ⟨?_, ?_, ?_, ?_⟩
    · dsimp only
      rw [attestLine_identity _ (ordered_placeLines _ _ _ _), Option.none_or]
      rfl
    · dsimp only
      rw [attestLine_latest, Option.or_none]
      rfl
    · simp [feed, advance, ScanState.initial, traceLines]
    · simp [feed, advance, ScanState.initial]

/-! ## Traces that grow -/

/-- **What a trace has attested stays**, however the grown trace is cut into chunks: either reader finds the identity
again, and the turn that started last is that of the attestation until the trace starts another one. -/
theorem attestation_grows {source later : JsonlSource} {attestation : CodexTurnAttestation} {more : Bytes}
    (hend : source.WithinEnd { pinEnd := true }) (hok : readCodexTurnAttestation E source = .ok attestation)
    (hgrown : later.chunks.flatten = source.chunks.flatten ++ more) :
    (∀ identity, attestation.identity = some identity →
        (∀ found, readCodexTraceIdentity E later = .ok found → found = some identity) ∧
        ∀ endOffset, openChecks {} later.opened = .ok endOffset →
          readCodexTraceIdentity E later = .ok (some identity)) ∧
      ∀ attestation', later.WithinEnd { pinEnd := true } → readCodexTurnAttestation E later = .ok attestation' →
        (attestation.identity.isSome → attestation'.identity = attestation.identity) ∧
        attestation.malformedLines ≤ attestation'.malformedLines ∧
        ∃ turns, startedTurns E later.chunks.flatten = startedTurns E source.chunks.flatten ++ turns ∧
          attestation'.latestStartedTurnId = turns.getLast?.or attestation.latestStartedTurnId := by
  have hattests := readCodexTurnAttestation_attests hend hok
  obtain ⟨lines, hlines⟩ := @traceLines_append E source.chunks.flatten more
  rw [← hgrown] at hlines
  have hagain : ∀ identity, attestation.identity = some identity →
      identityIn (traceLines E later.chunks.flatten) = some identity := by
    intro identity hidentity
    rw [hlines]
    exact identityIn_append (hattests.identity.symm.trans hidentity)
  refine ⟨fun identity hidentity => ⟨fun found hfound => ?_, fun endOffset hopen => ?_⟩,
    fun attestation' hend' hok' => ⟨fun hsome => ?_, ?_, ?_⟩⟩
  · rw [readCodexTraceIdentity_ok hfound, hagain identity hidentity]
  · unfold readCodexTraceIdentity
    dsimp only
    rw [identity_events hopen]
    exact identityLoop_found (hagain identity hidentity) _
  · obtain ⟨identity, hidentity⟩ := Option.isSome_iff_exists.1 hsome
    rw [(readCodexTurnAttestation_attests hend' hok').identity, hagain identity hidentity, hidentity]
  · rw [(readCodexTurnAttestation_attests hend' hok').malformed, hattests.malformed, hlines, List.countP_append]
    exact Nat.le_add_right _ _
  · obtain ⟨turns, hturns⟩ := @startedTurns_append E source.chunks.flatten more
    rw [← hgrown] at hturns
    refine ⟨turns, hturns, ?_⟩
    rw [(readCodexTurnAttestation_attests hend' hok').latest, hattests.latest, hturns, List.getLast?_append]

end

/-! ## A trace that starts its session -/

def traceHost : Host := Host.ofTables [] [(0, js "1970-01-01T00:00:00.000Z")] epochDate_ok

/-- The first line of a trace. -/
def metaLine : Bytes := utf8 (js "\x7b\"type\":\"session_meta\",\"payload\":\x7b\"id\":\"s\"\x7d\x7d\n")

def traceFile (bytes : Bytes) : FileState := { dev := 1, ino := 1, birthtimeNs := 1, mtimeNs := 1, bytes }

def traceSource (chunks : List Bytes) : JsonlSource :=
  { opened := .file (traceFile chunks.flatten), chunks, final := traceFile chunks.flatten }

theorem metaLine_read : (readCodexTurnAttestation traceHost (traceSource [metaLine])).toOption =
    some ⟨some ⟨js "s", js "s", js "legacy", none⟩, none, 0, false⟩ := by
  decide +kernel

theorem traceSource_within : (traceSource [metaLine]).WithinEnd { pinEnd := true } := by
  intro e he
  have hopen : openChecks { pinEnd := true } (traceSource [metaLine]).opened = .ok (some metaLine.length) := by
    decide +kernel
  rw [hopen] at he
  cases he
  have hlength : (traceSource [metaLine]).chunks.flatten.length = metaLine.length := by simp [traceSource]
  rw [hlength]
  exact (Nat.zero_add _).le

/-- A trace that goes on in the middle of a character. -/
theorem attestation_grows_first : readCodexTraceIdentity traceHost (traceSource [metaLine, [0xE2]]) =
    .ok (some ⟨js "s", js "s", js "legacy", none⟩) := by
  have hgrows := @attestation_grows traceHost (traceSource [metaLine]) (traceSource [metaLine, [0xE2]]) _ [0xE2]
    traceSource_within (Outcome.toOption_some.1 metaLine_read) (by simp [traceSource])
  exact (hgrows.1 _ rfl).2 none (by decide +kernel)

end Barbaro.Codex
