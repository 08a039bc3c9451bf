import Barbaro.Core.Host

/-!
# Unavailable feeds

A feed that cannot be read for a reason that may pass (it is gone, too large, not
permitted, or the I/O fails) is skipped and counted; any other failure stops the scan.
-/

namespace Barbaro

inductive FeedAvailabilityReason
  | fileTooLarge
  | recordTooLarge
  | missing
  | permissionDenied
  | ioUnavailable
  deriving DecidableEq, Repr

structure FeedAvailabilityFailure where
  provider : JsString
  sessionId : JsString
  reason : FeedAvailabilityReason
  code : Option String := none
  maximumBytes : Option ℕ := none
  deriving DecidableEq, Repr

/-- `AVAILABILITY_CODES` -/
def availabilityCodes : List String :=
  ["ENOENT", "EACCES", "EPERM", "EMFILE", "ENFILE", "EIO", "ESTALE", "EBUSY", "ETIMEDOUT"]

def maxFeedAvailabilityDetails : ℕ := 8

/-- Arbitrary range errors, unsafe paths and corrupt state are never availability. -/
def feedAvailabilityFailure (provider sessionId : JsString) :
    Failure → Option FeedAvailabilityFailure
  | .inputLimit _ kind maximumBytes _ =>
    some {
      provider, sessionId
      reason := match kind with | .file => .fileTooLarge | .record => .recordTooLarge
      maximumBytes := some maximumBytes }
  | .system code =>
    if code ∈ availabilityCodes then
      some {
        provider, sessionId
        reason :=
          if code = "ENOENT" then .missing
          else if code = "EACCES" ∨ code = "EPERM" then .permissionDenied
          else .ioUnavailable
        code := some code }
    else none
  | _ => none

def missingFeedError : Failure := .system "ENOENT"

/-- Fixed diagnostic memory: the counts include the failures left out of the sample. -/
structure FeedCoverageTracker where
  scanned : ℕ := 0
  unavailable : ℕ := 0
  items : List FeedAvailabilityFailure := []
  deriving DecidableEq, Repr

def FeedCoverageTracker.noteScanned (t : FeedCoverageTracker) : FeedCoverageTracker :=
  { t with scanned := t.scanned + 1 }

def FeedCoverageTracker.noteUnavailable (t : FeedCoverageTracker) (f : FeedAvailabilityFailure) :
    FeedCoverageTracker :=
  { t with
    unavailable := t.unavailable + 1
    items := if t.items.length < maxFeedAvailabilityDetails then t.items ++ [f] else t.items }

/-- `coverage.state === "incomplete"` -/
def FeedCoverageTracker.incomplete (t : FeedCoverageTracker) : Bool := t.unavailable ≠ 0

end Barbaro
