import Barbaro.Active.Store
import Barbaro.Core.BarbaroCommand
import Barbaro.Core.Content
import Barbaro.Core.Paths

/-!
# What a Claude tool may write

Before a tool runs, its name and its input are classified: an edit claims the one path it
names, a shell command is of unknown scope unless it is one of the program's own, and a
wait claims nothing. A claim is what the lease of the actor tells its peers.

* `describeToolScope`: the classification.
* `mergeClaims`: the claims of parallel tools together.
* `subset_mergeClaims_left`, `subset_mergeClaims_right`: nothing of them is lost.
-/

namespace Barbaro

/-! ## Paths of the repository -/

/-- The path inside the workspace, or nothing if it lies outside or cannot be spelled on
the wire. -/
def normalizeRepoPath (root : List JsString) (candidate : JsString) : Option JsString :=
  if candidate.contains 0 || candidate.contains 92 || Active.hasDrive candidate then none
  else
    let absolute := resolvePath root candidate
    if !root.isPrefixOf absolute || absolute.length == root.length then none
    else
      let normalized := ([47] : JsString).intercalate (absolute.drop root.length)
      if normalized.contains 92 || normalized.contains 0 || normalized.head? == some 47 ||
          Active.hasDrive normalized || (normalized.splitOn 47).contains (js "..") then none
      else some normalized

theorem normalizeRepoPath_nul {root : List JsString} {candidate path : JsString}
    (h : normalizeRepoPath root candidate = some path) : (0 : UInt16) ∉ path := by
  simp only [normalizeRepoPath] at h
  split_ifs at h with hcandidate houtside hspelled
  cases h
  simp only [Bool.or_eq_true, List.contains_eq_mem, decide_eq_true_eq, not_or] at hspelled
  exact hspelled.1.1.1.2

/-- A path below the given one, or the path itself. -/
def isAtOrBelow (directory : String) (path : JsString) : Bool :=
  path == js directory || (js directory ++ [47]).isPrefixOf path

def isGeneratedBarbaroPath (path : JsString) : Bool :=
  isAtOrBelow ".barbaro/feed" path || isAtOrBelow ".barbaro/evidence" path ||
    isAtOrBelow ".barbaro/active" path

namespace Active

/-! ## Claims -/

structure ActiveWriteClaim where
  path : JsString
  mode : JsString
  confidence : JsString
  deriving DecidableEq, Repr

def ActiveWriteClaim.toJson (c : ActiveWriteClaim) : Json :=
  .obj [(js "path", .str c.path), (js "mode", .str c.mode), (js "confidence", .str c.confidence)]

/-- A claim of a lease, where the validator has found one. -/
def claimOf (v : Json) : ActiveWriteClaim where
  path := textAt "path" v
  mode := textAt "mode" v
  confidence := textAt "confidence" v

/-- `lease.claims` -/
def claimsOf (lease : Json) : List ActiveWriteClaim := ((itemsAt? "claims" lease).getD []).map claimOf

theorem claimOf_toJson (c : ActiveWriteClaim) : claimOf c.toJson = c := by
  simp [claimOf, ActiveWriteClaim.toJson, textAt, Json.get, Json.lookup]

/-- A claim the validator accepts. -/
structure ActiveWriteClaim.Ok (c : ActiveWriteClaim) : Prop where
  path : (0 : UInt16) ∉ c.path
  mode : c.mode = js "write"

theorem validateRepoPath_ok {value : Option Json} {path : JsString} (h : validateRepoPath value path = []) :
    ∃ s, value = some (.str s) ∧ (0 : UInt16) ∉ s := by
  unfold validateRepoPath at h
  split at h
  · next s =>
    split_ifs at h with hempty hpath
    refine ⟨s, rfl, ?_⟩
    simp only [isRepoPath, Bool.and_eq_true, Bool.not_eq_true', List.contains_eq_mem,
      decide_eq_false_iff_not] at hpath
    exact hpath.1.2
  · cases h

theorem validateClaim_ok {v : Json} {path : JsString} (h : validateClaim v path = []) : (claimOf v).Ok := by
  unfold validateClaim validateObject at h
  split at h
  · next fs hv =>
    simp only [List.append_eq_nil_iff] at h
    obtain ⟨⟨⟨-, hpath⟩, hmode⟩, -⟩ := h
    obtain ⟨s, hs, hnul⟩ := validateRepoPath_ok hpath
    refine ⟨by simpa [claimOf, textAt, hs] using hnul, ?_⟩
    split_ifs at hmode with hwrite
    unfold equalsText at hwrite
    split at hwrite
    · next mode hmode =>
      simpa [claimOf, textAt, hmode] using hwrite
    · cases hwrite
  · cases h

theorem claimsOf_ok {E : Host} {lease : Json} (h : validateActiveLease E lease = []) :
    ∀ c ∈ claimsOf lease, c.Ok := by
  intro c hc
  have hclaims : validateArray (lease.get (js "claims")) (leasePath "claims") validateClaim = [] := by
    unfold validateActiveLease validateObject at h
    split at h
    · simp only [List.append_eq_nil_iff] at h
      tauto
    · cases h
  unfold validateArray at hclaims
  split at hclaims
  · next vs hget =>
    obtain ⟨v, hv, rfl⟩ : ∃ v ∈ vs, claimOf v = c := by
      simpa [claimsOf, itemsAt?, hget] using hc
    obtain ⟨i, hi, hat⟩ := List.mem_iff_getElem.1 hv
    have hmem : (v, i) ∈ vs.zipIdx := List.mem_iff_getElem.2 ⟨i, by simpa using hi, by simp [hat]⟩
    exact validateClaim_ok (List.flatMap_eq_nil_iff.1 hclaims (v, i) hmem)
  · cases hclaims

end Active

namespace Hooks

open Active

/-- `${claim.path}\0${claim.mode}\0${claim.confidence}` -/
def claimKey (c : ActiveWriteClaim) : JsString := c.path ++ 0 :: (c.mode ++ 0 :: c.confidence)

/-- `byKey.set(key, claim)` -/
def setClaim (c : ActiveWriteClaim) : List ActiveWriteClaim → List ActiveWriteClaim
  | [] => [c]
  | d :: ds => if claimKey d = claimKey c then c :: ds else d :: setClaim c ds

def compareClaims (a b : ActiveWriteClaim) : Bool :=
  compareUtf16CodeUnits (claimKey a) (claimKey b) ≠ .gt

def mergeClaims (previous added : List ActiveWriteClaim) : List ActiveWriteClaim :=
  ((previous ++ added).foldl (fun byKey c => setClaim c byKey) []).mergeSort compareClaims

theorem takeWhile_path {path : JsString} (h : (0 : UInt16) ∉ path) (rest : JsString) :
    (path ++ 0 :: rest).takeWhile (· ≠ 0) = path := by
  rw [List.takeWhile_append_of_pos]
  · simp
  · intro u hu
    simp only [decide_eq_true_eq]
    rintro rfl
    exact h hu

/-- A claim is known by its key. -/
theorem claimKey_inj {c d : ActiveWriteClaim} (hc : c.Ok) (hd : d.Ok) (h : claimKey c = claimKey d) : c = d := by
  obtain ⟨path, mode, confidence⟩ := c
  obtain ⟨path', mode', confidence'⟩ := d
  obtain ⟨hpath, rfl⟩ := hc
  obtain ⟨hpath', rfl⟩ := hd
  -- the first zero of the key ends the path
  have hcut : (claimKey ⟨path, js "write", confidence⟩).takeWhile (· ≠ 0) = path ∧
      (claimKey ⟨path', js "write", confidence'⟩).takeWhile (· ≠ 0) = path' := by
    constructor
    · exact takeWhile_path hpath _
    · exact takeWhile_path hpath' _
  have heq : path = path' := by rw [← hcut.1, ← hcut.2, h]
  subst heq
  simp only [claimKey, List.append_cancel_left_eq, List.cons.injEq, true_and] at h
  rw [h]

theorem mem_setClaim_self (c : ActiveWriteClaim) (byKey : List ActiveWriteClaim) : c ∈ setClaim c byKey := by
  induction byKey with
  | nil => simp [setClaim]
  | cons d ds ih =>
    rw [setClaim]
    split
    · exact List.mem_cons_self
    · exact List.mem_cons_of_mem d ih

/-- A claim that takes the place of another is that claim. -/
theorem mem_setClaim_of_mem {c d : ActiveWriteClaim} {byKey : List ActiveWriteClaim} (hc : c.Ok) (hd : d.Ok)
    (h : c ∈ byKey) : c ∈ setClaim d byKey := by
  induction byKey with
  | nil => cases h
  | cons e es ih =>
    rw [setClaim]
    rcases List.mem_cons.1 h with rfl | h
    · split
      · next hkey =>
        rw [claimKey_inj hc hd hkey]
        exact List.mem_cons_self
      · exact List.mem_cons_self
    · split
      · exact List.mem_cons_of_mem d h
      · exact List.mem_cons_of_mem e (ih h)

theorem mem_foldl_setClaim {cs byKey : List ActiveWriteClaim} (hcs : ∀ d ∈ cs, d.Ok) {c : ActiveWriteClaim}
    (hc : c.Ok) (h : c ∈ cs ∨ c ∈ byKey) : c ∈ cs.foldl (fun byKey d => setClaim d byKey) byKey := by
  induction cs generalizing byKey with
  | nil => exact h.resolve_left (by simp)
  | cons d cs ih =>
    obtain ⟨hd, hcs⟩ := List.forall_mem_cons.1 hcs
    refine ih hcs ?_
    rcases h with h | h
    · rcases List.mem_cons.1 h with rfl | h
      · exact .inr (mem_setClaim_self c byKey)
      · exact .inl h
    · exact .inr (mem_setClaim_of_mem hc hd h)

/-- **The claims that are added are there**, whatever they are added to. -/
theorem subset_mergeClaims_right {previous added : List ActiveWriteClaim} (hadded : ∀ c ∈ added, c.Ok) :
    added ⊆ mergeClaims previous added := by
  intro c hc
  rw [mergeClaims, (List.mergeSort_perm _ _).mem_iff, List.foldl_append]
  exact mem_foldl_setClaim hadded (hadded c hc) (.inl hc)

/-- **No claim is lost** where claims are added. -/
theorem subset_mergeClaims_left {previous added : List ActiveWriteClaim} (hprevious : ∀ c ∈ previous, c.Ok)
    (hadded : ∀ c ∈ added, c.Ok) : previous ⊆ mergeClaims previous added := by
  intro c hc
  have hall : ∀ d ∈ previous ++ added, d.Ok := by
    intro d hd
    rcases List.mem_append.1 hd with hd | hd
    · exact hprevious d hd
    · exact hadded d hd
  rw [mergeClaims, (List.mergeSort_perm _ _).mem_iff]
  exact mem_foldl_setClaim hall (hprevious c hc) (.inl (List.mem_append_left added hc))

/-! ## Tools -/

/-- The tools whose results never mutate the workspace. -/
def claudeReadOnlyTools : List String :=
  ["Read", "Grep", "Glob", "WebFetch", "WebSearch", "ToolSearch", "NotebookRead", "TodoWrite",
    "AskUserQuestion", "Skill"]

def claudeFileChangeTools : List String := ["Edit", "Write", "NotebookEdit"]

def claudeSubagentTools : List String := ["Agent", "Task"]

/-- `typeof value === "string" && value.length > 0 ? value : undefined` -/
def stringValue : Option Json → Option JsString
  | some (.str s) => if s = [] then none else some s
  | _ => none

def activeCommandBytes : ℕ := 512

structure ToolScope where
  /-- `current_action` -/
  action : Json
  claims : List ActiveWriteClaim
  unknownWriteScope : Bool
  awaitCommand : Option AwaitCommandClassification := none

/-- An action that tells the name of its tool only. -/
def toolAction (toolName : JsString) : Json :=
  .obj [(js "kind", .str (js "tool")), (js "tool_name", .str toolName)]

/-- What a tool may write. Nothing for the files that are generated. -/
def describeToolScope (E : Host) (root : List JsString) (toolName : JsString) (toolInput : Json) :
    Option ToolScope :=
  let named := fun (tools : List String) => tools.any (fun t => js t == toolName)
  if named claudeFileChangeTools then
    let path := (stringValue (toolInput.get (js "file_path"))).bind (normalizeRepoPath root)
    if path.any isGeneratedBarbaroPath then none
    else some {
      action := .obj ([(js "kind", .str (js "file_change")), (js "tool_name", .str toolName)] ++
        optionalField "path" (path.map .str))
      -- a target outside the workspace has no path to claim
      claims := (path.map (fun p => ⟨p, js "write", js "exact"⟩)).toList
      unknownWriteScope := path.isNone }
  else if toolName = js "Bash" then
    let command := (stringValue (toolInput.get (js "command"))).getD []
    let awaitCommand := classifyAwaitCommand E command
    some {
      action := .obj [(js "kind", .str (js "command")), (js "tool_name", .str toolName),
        (js "command", excerptContent command activeCommandBytes)]
      -- the write set of a shell command is not statically knowable
      claims := []
      unknownWriteScope := awaitCommand.isNone && !isDigestExcludedBarbaroCommand command
      awaitCommand }
  else if named claudeSubagentTools then
    some { action := toolAction toolName, claims := [], unknownWriteScope := true }
  else if named claudeReadOnlyTools || (js "mcp__").isPrefixOf toolName then
    some { action := toolAction toolName, claims := [], unknownWriteScope := !named claudeReadOnlyTools }
  else
    -- an unrecognized tool may write anywhere
    some { action := toolAction toolName, claims := [], unknownWriteScope := true }

/-- A wait writes nothing. -/
theorem describeToolScope_await {E : Host} {root : List JsString} {toolName : JsString} {toolInput : Json}
    {scope : ToolScope} (h : describeToolScope E root toolName toolInput = some scope)
    (hawait : scope.awaitCommand.isSome) : scope.claims = [] ∧ scope.unknownWriteScope = false := by
  simp only [describeToolScope] at h
  split_ifs at h
  all_goals cases h
  all_goals simp at hawait
  obtain ⟨await, hawait⟩ := Option.isSome_iff_exists.1 hawait
  simp [hawait]

/-- Every claim of a tool is one the validator accepts. -/
theorem describeToolScope_ok {E : Host} {root : List JsString} {toolName : JsString} {toolInput : Json}
    {scope : ToolScope} (h : describeToolScope E root toolName toolInput = some scope) :
    ∀ c ∈ scope.claims, c.Ok := by
  simp only [describeToolScope] at h
  split_ifs at h
  · cases h
    intro c hc
    simp only [Option.mem_toList, Option.map_eq_some_iff, Option.bind_eq_some_iff] at hc
    obtain ⟨p, ⟨raw, -, hp⟩, rfl⟩ := hc
    exact ⟨normalizeRepoPath_nul hp, rfl⟩
  all_goals
    cases h
    simp

end Hooks

end Barbaro
