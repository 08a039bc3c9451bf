import Barbaro.Core.EncodeJson
import Barbaro.Hooks.ClaudeScope

/-!
# Overlapping write claims

What the leases of a project claim to write is compared pair by pair: two claims overlap if
they are of different sessions in different workstreams, and one path is the other or lies
below it. A query may be for one workstream, which is then the local side of each pair.

* `projectWriteClaims`: the claims of all current leases, in one order.
* `projectClaimOverlaps`: the pairs that overlap.
* `claimPathsOverlap_iff`: paths are compared as lists of components.
-/

namespace Barbaro.Active

/-! ## Leases and their claims -/

inductive ActiveLeaseState
  | working
  | waiting
  | blocked
  | idle
  deriving DecidableEq, Repr

inductive ClaimConfidence
  | exact
  | inferred
  | unknown
  deriving DecidableEq, Repr

/-- The confidence of a claim the validator accepts: it is exact or inferred. -/
def claimConfidence (c : ActiveWriteClaim) : ClaimConfidence :=
  if c.confidence = js "inferred" then .inferred else .exact

/-- What an observer reads of a lease. -/
structure LeaseSnapshot where
  leaseId : JsString
  provider : JsString
  sessionId : JsString
  agentId : JsString
  workstreamId : Option JsString
  state : ActiveLeaseState
  claims : List ActiveWriteClaim
  unknownWriteScope : Bool
  updatedAt : JsString
  expiresAt : JsString
  deriving DecidableEq, Repr

def LeaseSnapshot.actor (l : LeaseSnapshot) : ActiveActorKey := ⟨l.provider, l.sessionId, l.agentId⟩

def leaseStateOf (text : JsString) : ActiveLeaseState :=
  if text = js "waiting" then .waiting
  else if text = js "blocked" then .blocked
  else if text = js "idle" then .idle
  else .working

/-- The fields of a lease that was validated. -/
def ActiveLeaseV1.snapshot {E : Host} (lease : ActiveLeaseV1 E) : LeaseSnapshot where
  leaseId := textAt "lease_id" lease.json
  provider := textAt "provider" lease.json
  sessionId := textAt "session_id" lease.json
  agentId := textAt "agent_id" lease.json
  workstreamId := textAt? "workstream_id" lease.json
  state := leaseStateOf (textAt "state" lease.json)
  claims := claimsOf lease.json
  unknownWriteScope := isTrue (lease.json.get (js "unknown_write_scope"))
  updatedAt := textAt "updated_at" lease.json
  expiresAt := textAt "expires_at" lease.json

/-- Advisory project-relative claim. No path means unknown scope. -/
structure ProjectWriteClaim where
  leaseId : JsString
  provider : JsString
  sessionId : JsString
  agentId : JsString
  workstreamId : Option JsString
  path : Option JsString
  confidence : ClaimConfidence
  unknownWriteScope : Bool
  expiresAt : JsString
  deriving DecidableEq, Repr

structure ProjectClaimOverlap where
  localClaim : ProjectWriteClaim
  foreignClaim : ProjectWriteClaim
  confidence : ClaimConfidence
  advisory : Bool := true
  deriving DecidableEq, Repr

/-- Lexical, on paths of the repository. -/
def claimPathsOverlap (left right : JsString) : Bool :=
  left == right || (right ++ [47]).isPrefixOf left || (left ++ [47]).isPrefixOf right

/-- `paths.get(path)` -/
def getPath (path : JsString) : List (JsString × ClaimConfidence) → Option ClaimConfidence
  | [] => none
  | (p, c) :: paths => if p = path then some c else getPath path paths

/-- `paths.set(path, confidence)` -/
def setPath (path : JsString) (confidence : ClaimConfidence) :
    List (JsString × ClaimConfidence) → List (JsString × ClaimConfidence)
  | [] => [(path, confidence)]
  | (p, c) :: paths => if p = path then (path, confidence) :: paths else (p, c) :: setPath path confidence paths

/-- A claim on a path that cannot be spelled makes the scope unknown; of two claims on one
path the weaker confidence is kept. -/
def noteClaim (root : List JsString) (noted : List (JsString × ClaimConfidence) × Bool) (claim : ActiveWriteClaim) :
    List (JsString × ClaimConfidence) × Bool :=
  match normalizeRepoPath root claim.path with
  | none => (noted.1, true)
  | some path =>
    (setPath path (if getPath path noted.1 = some .inferred then .inferred else claimConfidence claim) noted.1, noted.2)

/-- The claims of one lease. -/
def leaseClaims (root : List JsString) (lease : LeaseSnapshot) : List ProjectWriteClaim :=
  let noted := lease.claims.foldl (noteClaim root) ([], lease.unknownWriteScope)
  let owner : ProjectWriteClaim := {
    leaseId := lease.leaseId, provider := lease.provider, sessionId := lease.sessionId
    agentId := lease.agentId, workstreamId := lease.workstreamId, path := none, confidence := .unknown
    unknownWriteScope := noted.2, expiresAt := lease.expiresAt }
  noted.1.map (fun p => { owner with path := some p.1, confidence := p.2 }) ++
    (if noted.2 && noted.1.isEmpty then [owner] else [])

def textOrNull : Option JsString → Json
  | some s => .str s
  | none => .null

def claimIdentity (claim : ProjectWriteClaim) : JsString :=
  stableStringify (.arr [textOrNull claim.workstreamId, .str claim.provider, .str claim.sessionId,
    .str claim.agentId, textOrNull claim.path])

section
variable (E : Host)

/-- A lease that is neither idle nor expired. -/
def isCurrent (now : ℤ) (lease : LeaseSnapshot) : Bool :=
  !(lease.state == .idle || (E.dateParse lease.expiresAt).any (· ≤ now))

def projectWriteClaims (root : List JsString) (leases : List LeaseSnapshot) (now : ℤ) : List ProjectWriteClaim :=
  ((leases.filter (isCurrent E now)).flatMap (leaseClaims root)).mergeSort
    (fun a b => compareUtf16CodeUnits (claimIdentity a) (claimIdentity b) ≠ .gt)

end

/-- A pair is exact if both claims are, and name one path. -/
def overlapConfidence (left right : ProjectWriteClaim) : ClaimConfidence :=
  if left.confidence = .exact ∧ right.confidence = .exact ∧ left.path = right.path then .exact else .inferred

/-- A pair of claims, as it is told. Only known paths of different workstreams overlap;
unknown scope is never a collision. -/
def overlapOf (workstreamId : Option JsString) (left right : ProjectWriteClaim) : Option ProjectClaimOverlap :=
  match left.path, right.path with
  | some p, some q =>
    if left.workstreamId = right.workstreamId then none
    else if left.provider = right.provider ∧ left.sessionId = right.sessionId then none
    else if workstreamId.isSome ∧ left.workstreamId ≠ workstreamId ∧ right.workstreamId ≠ workstreamId then none
    else if !claimPathsOverlap p q then none
    else
      let swapped := workstreamId.isSome && decide (right.workstreamId = workstreamId)
      some {
        localClaim := if swapped then right else left
        foreignClaim := if swapped then left else right
        confidence := overlapConfidence left right }
  | _, _ => none

/-- Each claim with each later one. -/
def projectClaimOverlaps (workstreamId : Option JsString) : List ProjectWriteClaim → List ProjectClaimOverlap
  | [] => []
  | left :: rest => rest.filterMap (overlapOf workstreamId left) ++ projectClaimOverlaps workstreamId rest

/-! ## Paths -/

/-- The components of a path. -/
def pathComponents (path : JsString) : List JsString := path.splitOn 47

theorem splitOn_append {α : Type} [BEq α] [LawfulBEq α] (p q : List α) (x : α) :
    (p ++ x :: q).splitOn x = p.splitOn x ++ q.splitOn x := by
  induction p with
  | nil => simp [List.splitOn_cons_eq_if_modifyHead]
  | cons y p ih =>
    rw [List.cons_append, List.splitOn_cons_eq_if_modifyHead, List.splitOn_cons_eq_if_modifyHead, ih]
    split
    · rfl
    · have hne : p.splitOn x ≠ [] := List.splitOn_ne_nil x p
      obtain ⟨head, tail, hsplit⟩ := List.exists_cons_of_ne_nil hne
      rw [hsplit]
      rfl

/-- **A path lies strictly below another** exactly if its components go on after those of it. -/
theorem isPrefixOf_path_iff (p q : JsString) :
    (p ++ [47]).isPrefixOf q = true ↔ pathComponents p <+: pathComponents q ∧ p ≠ q := by
  rw [List.isPrefixOf_iff_prefix]
  constructor
  · rintro ⟨rest, rfl⟩
    rw [List.append_assoc, List.singleton_append]
    refine ⟨⟨pathComponents rest, (splitOn_append p rest 47).symm⟩, fun heq => ?_⟩
    have hlength := congrArg List.length heq
    rw [List.length_append, List.length_cons] at hlength
    omega
  · rintro ⟨⟨rest, hrest⟩, hne⟩
    have hp : ([47] : JsString).intercalate (pathComponents p) = p := List.intercalate_splitOn 47
    have hq : ([47] : JsString).intercalate (pathComponents q) = q := List.intercalate_splitOn 47
    cases rest with
    | nil =>
      rw [List.append_nil] at hrest
      rw [← hp, hrest, hq] at hne
      exact absurd rfl hne
    | cons r rest =>
      refine ⟨([47] : JsString).intercalate (r :: rest), ?_⟩
      have hjoin : ∀ cs : List JsString, cs ≠ [] → ([47] : JsString).intercalate (cs ++ r :: rest) =
          ([47] : JsString).intercalate cs ++ 47 :: ([47] : JsString).intercalate (r :: rest) := by
        intro cs hcs
        induction cs with
        | nil => exact absurd rfl hcs
        | cons c cs ih =>
          cases cs with
          | nil => simp [List.intercalate_cons_cons]
          | cons d cs =>
            have ih := ih (by simp)
            simp only [List.cons_append] at ih ⊢
            rw [List.intercalate_cons_cons, ih, List.intercalate_cons_cons]
            simp
      rw [← hq, ← hrest, hjoin (pathComponents p) (List.splitOn_ne_nil 47 p), hp, List.append_assoc, List.singleton_append]

/-- One path is the other, or an ancestor of it. -/
def PathsMeet (p q : JsString) : Prop :=
  pathComponents p <+: pathComponents q ∨ pathComponents q <+: pathComponents p

/-- **Two paths overlap exactly if one is the other or an ancestor of it.** -/
theorem claimPathsOverlap_iff (p q : JsString) : claimPathsOverlap p q = true ↔ PathsMeet p q := by
  simp only [claimPathsOverlap, Bool.or_eq_true, beq_iff_eq, isPrefixOf_path_iff, PathsMeet]
  by_cases heq : p = q
  · simp [heq]
  · simp only [heq, Ne.symm heq, false_or, ne_eq, not_false_eq_true, and_true]
    exact or_comm

end Barbaro.Active
