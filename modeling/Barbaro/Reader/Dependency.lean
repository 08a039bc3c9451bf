import Barbaro.Active.Validation
import Barbaro.Core.BarbaroCommand

/-!
# Whom an actor waits for

A lease that waits or is blocked is shown with what it waits for, where that can be told from
the lease alone: the leading command of its action is a wait for the other members of the
workstream. A malformed or unscoped lease gets no invented target.

* `deriveReaderDependency`: the wait of a lease.
* `validRfc3339_of_valid`: a time that the validator of leases accepts is shown.
-/

namespace Barbaro.Reader

open Active

inductive ReaderDependencyKind
  | peerUnread
  | permission
  | humanInput
  | tool
  | external
  | unknown
  deriving DecidableEq, Repr

inductive ReaderAttentionAudience
  | user
  | peer
  | system
  | external
  | unknown
  deriving DecidableEq, Repr

/-- The target is a workstream: always the full id, never a display abbreviation. -/
structure ReaderDependencyMetadata where
  kind : ReaderDependencyKind
  audience : ReaderAttentionAudience
  workstreamId : JsString
  startedAt : Option JsString
  deadlineAt : Option JsString
  deriving DecidableEq, Repr

def maxReaderDependencyTimestampBytes : ℕ := 64

section
variable (E : Host)

/-- The value itself, if it is a real date-time. -/
def validRfc3339 (value : Option JsString) : Option JsString :=
  value.filter fun s => byteLength s ≤ maxReaderDependencyTimestampBytes &&
    (scanDateTime s).any DateTimeParts.real && (E.dateParse s).isSome

def addMilliseconds (value : JsString) (delta : ℤ) : Option JsString :=
  (E.dateParse value).bind fun millis => E.isoString (millis + delta)

def deriveReaderDependency (lease : Json) : Option ReaderDependencyMetadata :=
  if textAt? "state" lease ≠ some (js "waiting") ∧ textAt? "state" lease ≠ some (js "blocked") then none
  else do
    let workstreamId ← (textAt? "workstream_id" lease).filter isWorkstreamId
    let action ← lease.get (js "current_action")
    if textAt? "kind" action ≠ some (js "command") then none
    else
      let command ← action.get (js "command")
      let classified ← classifyAwaitCommand E (textAt "text" command)
      let startedAt := validRfc3339 E (textAt? "started_at" action)
      return {
        kind := .peerUnread
        audience := .peer
        workstreamId
        startedAt
        deadlineAt := startedAt.bind fun s => addMilliseconds E s classified.timeoutMs }

variable {E}

/-- A time in an action that the validator accepts is a real date-time. -/
theorem validRfc3339_of_valid {s path : JsString} (h : (timestampMillis (some (.str s)) path E).1 = [])
    (hlen : byteLength s ≤ maxReaderDependencyTimestampBytes) : validRfc3339 E (some s) = some s := by
  unfold timestampMillis at h
  dsimp only at h
  cases hscan : scanDateTime s with
  | none =>
    rw [hscan] at h
    cases h
  | some t =>
    rw [hscan] at h
    dsimp only at h
    by_cases hreal : t.real = true
    · rw [if_neg (by simp [hreal])] at h
      cases hdate : E.dateParse s with
      | none =>
        rw [hdate] at h
        cases h
      | some millis => simp [validRfc3339, hlen, hscan, hreal, hdate]
    · rw [if_pos (by simpa using hreal)] at h
      cases h

end

end Barbaro.Reader
