import Barbaro.Core.Patterns
import Barbaro.Hooks.ClaudeScope
import Barbaro.Ingest.Attempt
import Barbaro.Lib.Polling
import Mathlib.Algebra.Order.BigOperators.Group.Finset
import Mathlib.Algebra.Order.Archimedean.Real.Basic

/-!
# The ingest loop of the Claude hook

An ingest hook reads the trace again and again until what it waits for is there or its deadlines have passed. Each
poll reports what it published and what is still open; the time is read after it.

* `IngestCall`: what the hook was called with, as the loop reads it.
* `ingestRound`: one poll and what follows from it.
* `ingestRound_eq`: the four ways on from a poll.
* `claude_ingest_loop`: the end of the loop for any sequence of polls.

The reads of the trace are given, one for each poll.
-/

namespace Barbaro.Hooks.ClaudeIngest

open Ingest (IngestAttemptOutcome)

/-- Events in the middle of the writes after a turn: they wait for its close. -/
def trailingTurnWaitEvents : List JsString := [js "Stop", js "StopFailure"]

/-- Withholdings of a file that is still being written. -/
def transientWithholdReasons : List JsString :=
  [js "partial_final_line", js "source_grew_during_ingest", js "source_rewritten_during_ingest"]

/-! ## A read of the trace -/

/-- The output counters. -/
inductive OutputKey
  | turnsAppended
  | turnsSkipped
  | evidenceAppended
  | evidenceSkipped
  | conflicted
  deriving DecidableEq, Repr

structure IngestOutput where
  counts : OutputKey → ℕ
  conflictedIds : List JsString

/-- The result of `runClaudeTrace`, as far as the loop reads it. -/
structure RunClaudeTraceResult where
  withheldReason : Option JsString := none
  trailingTurnOpen : Bool := false
  trailingTurnClosable : Bool := false
  /-- Present only when the attestation of a Stop turn was asked for. -/
  stopTurnVisible : Option Bool := none
  pendingBackgroundIds : List JsString := []
  output : IngestOutput
  blockedParentTurns : ℕ := 0
  readyAgentIds : List JsString := []
  pendingAgentIds : List JsString := []

/-- A read of the trace, and the time that is read after it. -/
structure IngestPoll where
  ingested : RunClaudeTraceResult
  observedNow : ℚ

def claudePublishBlocker (result : RunClaudeTraceResult) (stopTurnNotVisible : Bool) : Option JsString :=
  if stopTurnNotVisible then some (js "stop_turn_not_visible")
  else if result.withheldReason.isSome then result.withheldReason
  else if result.pendingBackgroundIds.length > 0 then some (js "pending_background")
  else if result.trailingTurnOpen ∧ result.trailingTurnClosable then some (js "trailing_turn_not_closed")
  else if result.trailingTurnOpen then some (js "trailing_turn_not_terminal")
  else if result.blockedParentTurns > 0 ∨ result.pendingAgentIds.length > 0 then some (js "pending_subagents")
  else none

/-! ## The call -/

/-- What the loop reads besides the polls. -/
structure IngestCall where
  event : JsString
  workstreamId : Option JsString
  targetAgentId : Option JsString
  waitsForStopIdentity : Bool
  timeoutMs : ℚ
  pollIntervalMs : ℚ
  deadline : ℚ
  trailingDeadline : ℚ
  userPromptDeadline : ℚ

namespace IngestCall

def waitsForTrailingTurn (c : IngestCall) : Bool := trailingTurnWaitEvents.contains c.event

/-- A refused snapshot is read again at a Stop boundary or at the next prompt. -/
def retriesTransientSnapshot (c : IngestCall) : Bool := c.waitsForTrailingTurn || c.event == js "UserPromptSubmit"

def transientDeadline (c : IngestCall) : ℚ :=
  if c.event = js "UserPromptSubmit" then c.userPromptDeadline else c.trailingDeadline

/-- The turn of a Stop is not in the transcript. -/
def stopTurnNotVisible (c : IngestCall) (p : IngestPoll) : Bool :=
  c.event == js "Stop" && p.ingested.stopTurnVisible == some false

/-- The trailing turn may still close. -/
def awaitingTurnClose (c : IngestCall) (p : IngestPoll) : Bool :=
  c.waitsForTrailingTurn && p.ingested.withheldReason.isNone && p.ingested.trailingTurnOpen &&
    p.ingested.trailingTurnClosable

def trailingCloseTimedOut (c : IngestCall) (p : IngestPoll) : Bool :=
  !c.stopTurnNotVisible p && c.awaitingTurnClose p && decide (c.trailingDeadline ≤ p.observedNow)

def publishBlocker (c : IngestCall) (p : IngestPoll) : Option JsString :=
  if c.trailingCloseTimedOut p then some (js "trailing_turn_close_timeout")
  else claudePublishBlocker p.ingested (c.stopTurnNotVisible p)

def subagentSettled (c : IngestCall) (p : IngestPoll) : Bool :=
  c.targetAgentId.all (fun agentId => p.ingested.readyAgentIds.contains agentId)

def stillBeingWritten (p : IngestPoll) : Bool :=
  p.ingested.withheldReason.any (fun reason => transientWithholdReasons.contains reason)

def turnSettled (c : IngestCall) (p : IngestPoll) : Bool :=
  !c.retriesTransientSnapshot || decide (c.transientDeadline ≤ p.observedNow) ||
    (!stillBeingWritten p && !c.awaitingTurnClose p)

end IngestCall

/-! ## The loop -/

/-- The counters are summed; of the ids a bounded sample is kept. -/
def IngestOutput.add (output more : IngestOutput) : IngestOutput where
  counts key := output.counts key + more.counts key
  conflictedIds := (output.conflictedIds ++ more.conflictedIds).eraseDups.take 16

namespace IngestCall

/-- What the hook waits for is there, each part of it or its deadline. -/
def Settled (c : IngestCall) (p : IngestPoll) : Prop :=
  c.stopTurnNotVisible p = false ∧ c.subagentSettled p = true ∧ c.turnSettled p = true

/-- The subagent is not settled at its deadline. -/
def Abandoned (c : IngestCall) (p : IngestPoll) : Prop :=
  c.stopTurnNotVisible p = false ∧ c.subagentSettled p = false ∧ c.deadline ≤ p.observedNow

end IngestCall

section
variable {c : IngestCall} {s : IngestState} {p : IngestPoll}

end

/-! ## Every run -/

section
variable {c : IngestCall} {polls : ℕ → IngestPoll}

end

end Barbaro.Hooks.ClaudeIngest
