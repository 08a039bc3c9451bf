import Barbaro.Ingest.Journal
import Barbaro.Reader.Types

/-!
# Publish summaries

The reader says of a session in a workstream whether its work is published, from the ingest
journal of the session and from its membership and turn histories. It selects one attempt
of the journal; when the journal has dropped attempts, or when not all of it is scanned, this
is the last one that was triggered under the workstream, in the order of the journal.

Every gap in a source makes the state `unknown`.
-/

namespace Barbaro.Publish

open Ingest

/-- `SessionWorkstreamMembership`, as it is given to the reader. -/
structure MembershipFact where
  workstreamId : JsString
  start : JsString
  deriving DecidableEq, Repr

section
variable (E : Host)

/-! ## Histories -/

/-- The last membership that has started, up to the first that has not. -/
def effectiveMembership (trigger : ℤ) : List MembershipFact → Option MembershipFact → Option MembershipFact
  | [], effective => effective
  | m :: ms, effective =>
    match E.dateParse m.start with
    | some start => if start ≤ trigger then effectiveMembership trigger ms (some m) else effective
    | none => effective

/-- The workstream that an attempt was triggered under. -/
def triggeredUnder (memberships : List MembershipFact) (triggeredAt : JsString) : Option JsString :=
  match E.dateParse triggeredAt with
  | none => none
  | some trigger => (effectiveMembership E trigger memberships none).map (·.workstreamId)

/-! ## Freshness -/

end

end Barbaro.Publish
