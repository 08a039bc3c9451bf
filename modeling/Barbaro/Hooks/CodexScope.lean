import Barbaro.Core.SameJson
import Barbaro.Hooks.AwaitLease
import Barbaro.Output.JsonlStore

/-!
# What a Codex tool may write

A patch names the files it writes in the headers of its operations, and the lease claims them; a
shell command is of unknown scope unless it is one of the program's own, and a tool the program
does not know claims no more than the paths it was given.

* `classifyToolActivity`: the classification.
* `SpelledLines`, `PatchOperation`: a patch, as it is written.
* `scanPatch_operations`: what its headers leave, one operation after the other.
* `patch_scope`: the claims of a patch are the files of its operations, no more and no fewer.
-/

namespace Barbaro.Hooks

open Active

/-! ## Patches -/

/-- A piece without the carriage return that belongs to its line end. -/
def withoutReturn (line : JsString) : JsString := if line.getLast? = some 13 then line.dropLast else line

/-- `patch.split(/\r?\n/)` -/
def patchLines (patch : JsString) : List JsString :=
  (Lines.cut 10 patch).1.map withoutReturn ++ [(Lines.cut 10 patch).2]

inductive PatchVerb
  | add
  | update
  | delete
  deriving DecidableEq, Repr

def PatchVerb.header : PatchVerb → JsString
  | .add => js "*** Add File:"
  | .update => js "*** Update File:"
  | .delete => js "*** Delete File:"

def moveHeader : JsString := js "*** Move to:"

/-- What `.` does not match. -/
def isLineTerminator (u : UInt16) : Bool := u == 10 || u == 13 || u == 0x2028 || u == 0x2029

def headerPath (verb : PatchVerb) (line : JsString) : Option JsString :=
  if !verb.header.isPrefixOf line then none
  else
    let rest := (line.drop verb.header.length).dropWhile isTrimUnit
    if rest.any isLineTerminator then none else some rest

/-- `/^\*\*\* (Add|Update|Delete) File:\s*(.*)$/` -/
def fileHeader (line : JsString) : Option (PatchVerb × JsString) :=
  ((headerPath .add line).map (Prod.mk .add)).or
    (((headerPath .update line).map (Prod.mk .update)).or ((headerPath .delete line).map (Prod.mk .delete)))

/-- The keys of the map of claims, with whether the path is one of the repository. -/
def addValidatedClaim (root : List JsString) (claims : List JsString) (rawPath : JsString) : List JsString × Bool :=
  match normalizeRepoPath root (trim rawPath) with
  | none => (claims, false)
  | some path => (if isGeneratedBarbaroPath path || claims.contains path then claims else claims ++ [path], true)

structure PatchScan where
  claims : List JsString := []
  hasPathHeader : Bool := false
  hasUnresolvedTarget : Bool := false
  deriving DecidableEq

/-- A header has named a path. -/
def PatchScan.target (root : List JsString) (rawPath : JsString) (st : PatchScan) : PatchScan where
  claims := (addValidatedClaim root st.claims rawPath).1
  hasPathHeader := true
  hasUnresolvedTarget := st.hasUnresolvedTarget || !(addValidatedClaim root st.claims rawPath).2

/-- The loop over the lines. -/
def scanPatch (root : List JsString) : List JsString → PatchScan → PatchScan
  | [], st => st
  | line :: rest, st =>
    match fileHeader line with
    | some (verb, rawPath) =>
      match verb, rest with
      | .update, next :: more =>
        if moveHeader.isPrefixOf next then
          scanPatch root more ((st.target root rawPath).target root (next.drop moveHeader.length))
        else scanPatch root (next :: more) (st.target root rawPath)
      | _, rest => scanPatch root rest (st.target root rawPath)
    | none =>
      -- a destination without its source is no complete move
      if moveHeader.isPrefixOf line then
        scanPatch root rest { st.target root (line.drop moveHeader.length) with hasUnresolvedTarget := true }
      else scanPatch root rest st

def exactClaim (path : JsString) : ActiveWriteClaim := ⟨path, js "write", js "exact"⟩

/-- `[...claims.values()].sort(…)` -/
def sortedClaims (claims : List JsString) : List ActiveWriteClaim :=
  (claims.mergeSort fun a b => compareUtf16CodeUnits a b ≠ .gt).map exactClaim

structure PatchScope where
  claims : List ActiveWriteClaim
  unknownWriteScope : Bool

def extractPatchClaims (patch : JsString) (root : List JsString) : PatchScope :=
  let st := scanPatch root (patchLines patch) {}
  { claims := sortedClaims st.claims
    unknownWriteScope := st.hasUnresolvedTarget || !st.hasPathHeader }

/-! ## Tools -/

/-- `READ_ONLY_CODEX_TOOLS_V0148` -/
def readOnlyCodexTools : List String :=
  ["current_time", "get_context_remaining", "list_mcp_resource_templates", "list_mcp_resources", "read_mcp_resource",
    "request_user_input", "tool_search", "view_image"]

def extractAdvisoryPathClaims (toolInput : Json) (root : List JsString) : List ActiveWriteClaim :=
  sortedClaims (["path", "destination"].foldl (fun claims key =>
    match (stringValue (toolInput.get (js key))).bind (normalizeRepoPath root) with
    | none => claims
    | some path => if isGeneratedBarbaroPath path || claims.contains path then claims else claims ++ [path]) [])

/-- An action with the one path that is claimed. -/
def claimAction (kind : String) (toolName : JsString) (claims : List ActiveWriteClaim) (startedAt : JsString) : Json :=
  .obj ([(js "kind", .str (js kind)), (js "tool_name", .str toolName)] ++
    optionalField "path" (if claims.length = 1 then claims.head?.map fun claim => .str claim.path else none) ++
    [(js "started_at", .str startedAt)])

def classifyToolActivity (E : Host) (input : Json) (root : List JsString) (startedAt : JsString) : ToolActivity :=
  let toolName := (stringValue (input.get (js "tool_name"))).getD (js "unknown")
  let toolInput := ((input.get (js "tool_input")).filter fun v => isObject (some v)).getD (.obj [])
  if toolName = js "apply_patch" then
    let scope := extractPatchClaims ((stringValue (toolInput.get (js "command"))).getD []) root
    { currentAction := claimAction "file_change" toolName scope.claims startedAt
      claims := scope.claims
      unknownWriteScope := scope.unknownWriteScope
      awaitCommand := none }
  else if toolName = js "Bash" ∨ toolName = js "exec" then shellActivity E toolName toolInput startedAt
  else if readOnlyCodexTools.any (fun tool => js tool == toolName) then
    { currentAction := claimAction "tool" toolName [] startedAt
      claims := []
      unknownWriteScope := false
      awaitCommand := none }
  else
    let claims := extractAdvisoryPathClaims toolInput root
    -- a tool that is not known may write anywhere
    { currentAction := claimAction (if 0 < claims.length then "file_change" else "tool") toolName claims startedAt
      claims
      unknownWriteScope := true
      awaitCommand := none }

/-! ## A patch as it is written -/

/-- The text has these lines; each line end is a line feed, with or without a carriage return. -/
inductive SpelledLines : List JsString → JsString → Prop
  | last {line : JsString} (hline : (10 : UInt16) ∉ line) : SpelledLines [line] line
  | feed {line text : JsString} {lines : List JsString} (hline : (10 : UInt16) ∉ line) (hreturn : line.getLast? ≠ some 13)
      (h : SpelledLines lines text) : SpelledLines (line :: lines) (line ++ 10 :: text)
  | returned {line text : JsString} {lines : List JsString} (hline : (10 : UInt16) ∉ line) (h : SpelledLines lines text) :
      SpelledLines (line :: lines) (line ++ 13 :: 10 :: text)

/-- An operation on a file, with the lines below its headers. -/
inductive PatchOperation
  | add (path : JsString) (body : List JsString)
  | update (path : JsString) (moveTo : Option JsString) (body : List JsString)
  | delete (path : JsString) (body : List JsString)

namespace PatchOperation

/-- The files it writes. -/
def targets : PatchOperation → List JsString
  | add path _ => [path]
  | update path moveTo _ => path :: moveTo.toList
  | delete path _ => [path]

def body : PatchOperation → List JsString
  | add _ body => body
  | update _ _ body => body
  | delete _ body => body

def headers : PatchOperation → List JsString
  | add path _ => [PatchVerb.add.header ++ 32 :: path]
  | update path moveTo _ =>
    (PatchVerb.update.header ++ 32 :: path) :: moveTo.toList.map fun destination => moveHeader ++ 32 :: destination
  | delete path _ => [PatchVerb.delete.header ++ 32 :: path]

def lines (op : PatchOperation) : List JsString := op.headers ++ op.body

end PatchOperation

/-- The line is the header of no operation. -/
def PlainLine (line : JsString) : Prop :=
  (∀ verb : PatchVerb, verb.header.isPrefixOf line = false) ∧ moveHeader.isPrefixOf line = false

/-- A path as a header can name it: on one line, without blanks around it. -/
structure TargetText (path : JsString) : Prop where
  trimmed : trim path = path
  oneLine : path.any isLineTerminator = false

structure PatchOperation.Ok (op : PatchOperation) : Prop where
  targets : ∀ path ∈ op.targets, TargetText path
  body : ∀ line ∈ op.body, PlainLine line

/-! ## Lines -/

theorem SpelledLines.lines {lines : List JsString} {text : JsString} (h : SpelledLines lines text) :
    patchLines text = lines := by
  induction h with
  | last hline => simp [patchLines, Lines.cut_of_free hline]
  | feed hline hreturn _ ih =>
    rw [patchLines, Lines.cut_line hline, List.map_cons, List.cons_append, withoutReturn, if_neg hreturn]
    rw [patchLines] at ih
    rw [ih]
  | @returned line text lines hline _ ih =>
    have hcut : (10 : UInt16) ∉ line ++ [13] := by
      rw [List.mem_append, List.mem_singleton, not_or]
      exact ⟨hline, by decide⟩
    have happend : line ++ 13 :: 10 :: text = (line ++ [13]) ++ 10 :: text := by simp
    rw [happend, patchLines, Lines.cut_line hcut, List.map_cons, List.cons_append, withoutReturn,
      if_pos List.getLast?_concat, List.dropLast_concat]
    rw [patchLines] at ih
    rw [ih]

/-- No blank stands in front of a path that has none around it. -/
theorem TargetText.front {path : JsString} (h : TargetText path) : path.dropWhile isTrimUnit = path := by
  have hlong : path.length ≤ (path.dropWhile isTrimUnit).length := by
    have htrim := congrArg List.length h.trimmed
    rw [trim, List.length_reverse] at htrim
    have hback := (List.dropWhile_sublist isTrimUnit (l := (path.dropWhile isTrimUnit).reverse)).length_le
    rw [List.length_reverse] at hback
    omega
  exact (List.dropWhile_sublist isTrimUnit).eq_of_length_le hlong

theorem headerPath_header {verb : PatchVerb} {path : JsString} (h : TargetText path) :
    headerPath verb (verb.header ++ 32 :: path) = some path := by
  have hprefix : verb.header.isPrefixOf (verb.header ++ 32 :: path) = true := by simp
  have hrest : ((verb.header ++ 32 :: path).drop verb.header.length).dropWhile isTrimUnit = path := by
    rw [List.drop_left, List.dropWhile_cons_of_pos (by decide), h.front]
  simp only [headerPath, hprefix, hrest]
  simp [h.oneLine]

theorem headerPath_other {verb other : PatchVerb} (hne : other ≠ verb) (rest : JsString) :
    headerPath other (verb.header ++ rest) = none := by
  unfold headerPath
  rw [if_pos]
  cases verb with
  | add => cases other <;> first | exact absurd rfl hne | rfl
  | update => cases other <;> first | exact absurd rfl hne | rfl
  | delete => cases other <;> first | exact absurd rfl hne | rfl

theorem fileHeader_header {verb : PatchVerb} {path : JsString} (h : TargetText path) :
    fileHeader (verb.header ++ 32 :: path) = some (verb, path) := by
  unfold fileHeader
  cases verb with
  | add => rw [headerPath_header h, Option.map_some, Option.some_or]
  | update =>
    rw [headerPath_other (by decide), headerPath_header h, Option.map_none, Option.none_or, Option.map_some,
      Option.some_or]
  | delete =>
    rw [headerPath_other (by decide), headerPath_other (by decide), headerPath_header h, Option.map_none,
      Option.none_or, Option.map_none, Option.none_or, Option.map_some]

theorem PlainLine.noHeader {line : JsString} (h : PlainLine line) : fileHeader line = none := by
  simp [fileHeader, headerPath, h.1]

/-! ## The scan of a patch -/

section
variable {root : List JsString}

theorem scanPatch_plain {lines rest : List JsString} (h : ∀ line ∈ lines, PlainLine line) (st : PatchScan) :
    scanPatch root (lines ++ rest) st = scanPatch root rest st := by
  induction lines generalizing st with
  | nil => rfl
  | cons line lines ih =>
    obtain ⟨hline, hlines⟩ := List.forall_mem_cons.1 h
    rw [List.cons_append, scanPatch, hline.noHeader]
    dsimp only
    rw [if_neg (by simp [hline.2])]
    exact ih hlines st

/-- What the headers of an operation leave. -/
def PatchScan.targets (root : List JsString) (targets : List JsString) (st : PatchScan) : PatchScan :=
  targets.foldl (fun st path => st.target root path) st

theorem addValidatedClaim_blank (claims : List JsString) (path : JsString) :
    addValidatedClaim root claims (32 :: path) = addValidatedClaim root claims path := by
  have htrim : trim (32 :: path) = trim path := by
    rw [trim, List.dropWhile_cons_of_pos (by decide), trim]
  rw [addValidatedClaim, htrim, addValidatedClaim]

/-- The next line is no destination of a move. -/
def NoMove (rest : List JsString) : Prop := ∀ next ∈ rest.head?, moveHeader.isPrefixOf next = false

/-- A header without a destination. -/
theorem scanPatch_header {verb : PatchVerb} {path : JsString} {rest : List JsString} (hpath : TargetText path)
    (hrest : verb = .update → NoMove rest) (st : PatchScan) :
    scanPatch root ((verb.header ++ 32 :: path) :: rest) st = scanPatch root rest (st.target root path) := by
  rw [scanPatch, fileHeader_header hpath]
  cases verb with
  | add => rfl
  | delete => rfl
  | update =>
    cases rest with
    | nil => rfl
    | cons next more =>
      have hnext : moveHeader.isPrefixOf next = false := hrest rfl next rfl
      dsimp only
      rw [if_neg (by simp [hnext])]

theorem scanPatch_move {path : JsString} (destination : JsString) {rest : List JsString} (hpath : TargetText path)
    (st : PatchScan) :
    scanPatch root ((PatchVerb.update.header ++ 32 :: path) :: (moveHeader ++ 32 :: destination) :: rest) st =
      scanPatch root rest ((st.target root path).target root destination) := by
  rw [scanPatch, fileHeader_header hpath]
  dsimp only
  rw [if_pos (by simp), List.drop_left]
  simp only [PatchScan.target, addValidatedClaim_blank]

theorem noMove_plain {body rest : List JsString} (hbody : ∀ line ∈ body, PlainLine line) (hrest : NoMove rest) :
    NoMove (body ++ rest) := by
  cases body with
  | nil => exact hrest
  | cons line body =>
    intro next hnext
    cases hnext
    exact (hbody line List.mem_cons_self).2

/-- **An operation** leaves its targets, whatever lines stand below its headers. -/
theorem scanPatch_operation {op : PatchOperation} (hop : op.Ok) {rest : List JsString} (hrest : NoMove rest)
    (st : PatchScan) : scanPatch root (op.lines ++ rest) st = scanPatch root rest (st.targets root op.targets) := by
  obtain ⟨htargets, hbody⟩ := hop
  have hnext := noMove_plain hbody hrest
  cases op with
  | add path body =>
    rw [PatchOperation.lines, List.append_assoc, PatchOperation.headers, List.singleton_append,
      scanPatch_header (htargets path (by simp [PatchOperation.targets])) (fun h => absurd h (by decide)), scanPatch_plain hbody]
    rfl
  | delete path body =>
    rw [PatchOperation.lines, List.append_assoc, PatchOperation.headers, List.singleton_append,
      scanPatch_header (htargets path (by simp [PatchOperation.targets])) (fun h => absurd h (by decide)), scanPatch_plain hbody]
    rfl
  | update path moveTo body =>
    have hpath := htargets path (by simp [PatchOperation.targets])
    cases moveTo with
    | none =>
      rw [PatchOperation.lines, List.append_assoc, PatchOperation.headers, Option.toList_none, List.map_nil,
        List.singleton_append, scanPatch_header hpath (fun _ => hnext), scanPatch_plain hbody]
      rfl
    | some destination =>
      rw [PatchOperation.lines, List.append_assoc, PatchOperation.headers, Option.toList_some, List.map_singleton,
        List.cons_append, List.singleton_append, scanPatch_move destination hpath, scanPatch_plain hbody]
      rfl

theorem noMove_operations {ops : List PatchOperation} {back : List JsString} (hback : ∀ line ∈ back, PlainLine line) :
    NoMove (ops.flatMap PatchOperation.lines ++ back) := by
  cases ops with
  | nil =>
    have hplain := @noMove_plain back [] hback (by simp [NoMove])
    rw [List.append_nil] at hplain
    exact hplain
  | cons op ops =>
    intro next hnext
    cases op with
    | add path body =>
      cases hnext
      rfl
    | delete path body =>
      cases hnext
      rfl
    | update path moveTo body =>
      cases hnext
      rfl

/-- **A patch** leaves the targets of its operations, one after the other. -/
theorem scanPatch_operations {ops : List PatchOperation} {back : List JsString} (hops : ∀ op ∈ ops, op.Ok)
    (hback : ∀ line ∈ back, PlainLine line) (st : PatchScan) :
    scanPatch root (ops.flatMap PatchOperation.lines ++ back) st =
      st.targets root (ops.flatMap PatchOperation.targets) := by
  induction ops generalizing st with
  | nil =>
    have hplain := @scanPatch_plain root back [] hback st
    rw [List.append_nil] at hplain
    exact hplain
  | cons op ops ih =>
    obtain ⟨hop, hops⟩ := List.forall_mem_cons.1 hops
    rw [List.flatMap_cons, List.append_assoc, scanPatch_operation hop (noMove_operations hback), ih hops,
      List.flatMap_cons, PatchScan.targets, PatchScan.targets, PatchScan.targets, List.foldl_append]

/-! ## What the targets leave -/

/-- The target is a file of the repository that a claim is made for. -/
def Claimed (root : List JsString) (target path : JsString) : Prop :=
  normalizeRepoPath root (trim target) = some path ∧ isGeneratedBarbaroPath path = false

theorem mem_addValidatedClaim {claims : List JsString} {target path : JsString} :
    path ∈ (addValidatedClaim root claims target).1 ↔ path ∈ claims ∨ Claimed root target path := by
  unfold addValidatedClaim Claimed
  cases hpath : normalizeRepoPath root (trim target) with
  | none => simp
  | some own =>
    dsimp only
    split
    · next hkept =>
      simp only [Bool.or_eq_true, List.contains_eq_mem, decide_eq_true_eq] at hkept
      constructor
      · exact .inl
      · rintro (h | ⟨h, hown⟩)
        · exact h
        · cases h
          exact hkept.resolve_left (by simp [hown])
    · next hnew =>
      simp only [Bool.or_eq_true, not_or, Bool.not_eq_true] at hnew
      rw [List.mem_append, List.mem_singleton]
      constructor
      · rintro (h | rfl)
        · exact .inl h
        · exact .inr ⟨rfl, hnew.1⟩
      · rintro (h | ⟨h, -⟩)
        · exact .inl h
        · exact .inr (Option.some.inj h).symm

theorem addValidatedClaim_nodup {claims : List JsString} (h : claims.Nodup) (target : JsString) :
    (addValidatedClaim root claims target).1.Nodup := by
  unfold addValidatedClaim
  split
  · exact h
  · dsimp only
    split
    · exact h
    · next hnew =>
      simp only [Bool.or_eq_true, List.contains_eq_mem, decide_eq_true_eq, not_or] at hnew
      exact List.nodup_append.2 ⟨h, List.nodup_singleton _, by
        intro a ha b hb hab
        rw [List.mem_singleton] at hb
        exact hnew.2 (hb ▸ hab ▸ ha)⟩

theorem addValidatedClaim_ok (claims : List JsString) (target : JsString) :
    (addValidatedClaim root claims target).2 = (normalizeRepoPath root (trim target)).isSome := by
  unfold addValidatedClaim
  split
  · next h => rw [h]; rfl
  · next h => rw [h]; rfl

theorem targets_claims {targets : List JsString} {st : PatchScan} {path : JsString} :
    path ∈ (st.targets root targets).claims ↔ path ∈ st.claims ∨ ∃ target ∈ targets, Claimed root target path := by
  induction targets generalizing st with
  | nil => simp [PatchScan.targets]
  | cons target targets ih =>
    have hstep : st.targets root (target :: targets) = (st.target root target).targets root targets := rfl
    rw [hstep, ih, PatchScan.target, mem_addValidatedClaim, or_assoc]
    simp only [List.mem_cons, exists_eq_or_imp]

theorem targets_nodup {targets : List JsString} {st : PatchScan} (h : st.claims.Nodup) :
    (st.targets root targets).claims.Nodup := by
  induction targets generalizing st with
  | nil => exact h
  | cons target targets ih => exact ih (addValidatedClaim_nodup h target)

theorem targets_unresolved {targets : List JsString} {st : PatchScan} :
    (st.targets root targets).hasUnresolvedTarget =
      (st.hasUnresolvedTarget || targets.any fun target => (normalizeRepoPath root (trim target)).isNone) := by
  induction targets generalizing st with
  | nil => simp [PatchScan.targets]
  | cons target targets ih =>
    have hstep : st.targets root (target :: targets) = (st.target root target).targets root targets := rfl
    rw [hstep, ih, PatchScan.target, addValidatedClaim_ok, List.any_cons, Bool.or_assoc, Option.not_isSome]

theorem targets_header {targets : List JsString} {st : PatchScan} :
    (st.targets root targets).hasPathHeader = (st.hasPathHeader || !targets.isEmpty) := by
  induction targets generalizing st with
  | nil => simp [PatchScan.targets]
  | cons target targets ih =>
    have hstep : st.targets root (target :: targets) = (st.target root target).targets root targets := rfl
    rw [hstep, ih, PatchScan.target]
    simp

/-- The claims of a scan, as they are told. -/
theorem sortedClaims_spec {claims : List JsString} (h : claims.Nodup) :
    (∀ claim, claim ∈ sortedClaims claims ↔ ∃ path ∈ claims, exactClaim path = claim) ∧
      (sortedClaims claims).Pairwise fun a b => compareUtf16CodeUnits a.path b.path = .lt := by
  constructor
  · intro claim
    rw [sortedClaims, List.mem_map]
    simp only [(List.mergeSort_perm _ _).mem_iff]
  · rw [sortedClaims, List.pairwise_map]
    exact sortedBy_strict id (by simpa using h)

/-- An operation has a target. -/
theorem PatchOperation.targets_ne_nil (op : PatchOperation) : op.targets ≠ [] := by
  cases op with
  | add path body => exact List.cons_ne_nil _ _
  | update path moveTo body => exact List.cons_ne_nil _ _
  | delete path body => exact List.cons_ne_nil _ _

end

/-- The scope is that of the operations: their files, no more and no fewer, in order; and it is whole if there is an
operation and every target lies in the repository. -/
structure ScopeOf (root : List JsString) (ops : List PatchOperation) (claims : List ActiveWriteClaim)
    (unknownWriteScope : Bool) : Prop where
  claimed : ∀ claim, claim ∈ claims ↔ ∃ op ∈ ops, ∃ target ∈ op.targets, ∃ path,
    normalizeRepoPath root target = some path ∧ isGeneratedBarbaroPath path = false ∧ exactClaim path = claim
  ordered : claims.Pairwise fun a b => compareUtf16CodeUnits a.path b.path = .lt
  whole : unknownWriteScope = false ↔
    ops ≠ [] ∧ ∀ op ∈ ops, ∀ target ∈ op.targets, (normalizeRepoPath root target).isSome = true

theorem extractPatchClaims_scope {root : List JsString} {front back : List JsString} {ops : List PatchOperation}
    {patch : JsString} (hspelled : SpelledLines (front ++ (ops.flatMap PatchOperation.lines ++ back)) patch)
    (hfront : ∀ line ∈ front, PlainLine line) (hops : ∀ op ∈ ops, op.Ok) (hback : ∀ line ∈ back, PlainLine line) :
    ScopeOf root ops (extractPatchClaims patch root).claims (extractPatchClaims patch root).unknownWriteScope := by
  have hscan : scanPatch root (patchLines patch) {} =
      PatchScan.targets root (ops.flatMap PatchOperation.targets) {} := by
    rw [hspelled.lines, scanPatch_plain hfront, scanPatch_operations hops hback]
  have htrim : ∀ op ∈ ops, ∀ target ∈ op.targets, trim target = target :=
    fun op hop target htarget => ((hops op hop).targets target htarget).trimmed
  obtain ⟨hmem, hordered⟩ := sortedClaims_spec
    (@targets_nodup root (ops.flatMap PatchOperation.targets) {} List.nodup_nil)
  simp only [extractPatchClaims, hscan]
  refine ⟨fun claim => ?_, hordered, ?_⟩
  · rw [hmem]
    constructor
    · rintro ⟨path, hpath, rfl⟩
      obtain ⟨target, htarget, hclaimed⟩ := (targets_claims.1 hpath).resolve_left (by simp)
      obtain ⟨op, hop, htarget⟩ := List.mem_flatMap.1 htarget
      rw [Claimed, htrim op hop target htarget] at hclaimed
      exact ⟨op, hop, target, htarget, path, hclaimed.1, hclaimed.2, rfl⟩
    · rintro ⟨op, hop, target, htarget, path, hpath, hgenerated, rfl⟩
      refine ⟨path, targets_claims.2 (.inr ⟨target, List.mem_flatMap.2 ⟨op, hop, htarget⟩, ?_⟩), rfl⟩
      rw [Claimed, htrim op hop target htarget]
      exact ⟨hpath, hgenerated⟩
  · rw [targets_unresolved, targets_header]
    simp only [Bool.false_or, Bool.or_eq_false_iff, Bool.not_not, List.any_eq_false, List.isEmpty_eq_false_iff]
    constructor
    · rintro ⟨hall, hsome⟩
      refine ⟨?_, fun op hop target htarget => ?_⟩
      · rintro rfl
        exact hsome rfl
      · have hresolved := hall target (List.mem_flatMap.2 ⟨op, hop, htarget⟩)
        rw [htrim op hop target htarget] at hresolved
        simpa [Option.isSome_iff_ne_none] using hresolved
    · rintro ⟨hne, hall⟩
      refine ⟨fun target htarget => ?_, ?_⟩
      · obtain ⟨op, hop, htarget⟩ := List.mem_flatMap.1 htarget
        rw [htrim op hop target htarget]
        simpa [Option.isSome_iff_ne_none] using hall op hop target htarget
      · obtain ⟨op, ops, rfl⟩ := List.exists_cons_of_ne_nil hne
        rw [List.flatMap_cons]
        exact List.append_ne_nil_of_left_ne_nil op.targets_ne_nil _

/-- **The write scope of a patch**: what the lease is told of an `apply_patch` is the scope of its operations,
whatever lines stand below their headers and however the lines end. -/
theorem patch_scope {E : Host} {input toolInput : Json} {root : List JsString} {startedAt patch : JsString}
    {front back : List JsString} {ops : List PatchOperation}
    (htool : stringValue (input.get (js "tool_name")) = some (js "apply_patch"))
    (hinput : input.get (js "tool_input") = some toolInput) (hobject : isObject (some toolInput) = true)
    (hpatch : stringValue (toolInput.get (js "command")) = some patch)
    (hspelled : SpelledLines (front ++ (ops.flatMap PatchOperation.lines ++ back)) patch)
    (hfront : ∀ line ∈ front, PlainLine line) (hops : ∀ op ∈ ops, op.Ok) (hback : ∀ line ∈ back, PlainLine line) :
    ScopeOf root ops (classifyToolActivity E input root startedAt).claims
      (classifyToolActivity E input root startedAt).unknownWriteScope := by
  have hscope := @extractPatchClaims_scope root front back ops patch hspelled hfront hops hback
  have hactivity : (classifyToolActivity E input root startedAt).claims = (extractPatchClaims patch root).claims ∧
      (classifyToolActivity E input root startedAt).unknownWriteScope =
        (extractPatchClaims patch root).unknownWriteScope := by
    simp [classifyToolActivity, htool, hinput, Option.filter, hobject, hpatch]
  rw [hactivity.1, hactivity.2]
  exact hscope

/-- A move, with a line of the file that looks like no header. -/
def movedOperation : PatchOperation := .update (js "a") (some (js "b")) [js "@@", js "-x", js "+y"]

def scopeHost : Host := Host.ofTables [] [(0, js "1970-01-01T00:00:00.000Z")] epochDate_ok

def movedPatch : JsString :=
  js "*** Begin Patch" ++ 13 :: 10 :: ((PatchVerb.update.header ++ 32 :: js "a") ++ 10 ::
    ((moveHeader ++ 32 :: js "b") ++ 10 :: (js "@@" ++ 10 :: (js "-x" ++ 13 :: 10 :: (js "+y" ++ 10 ::
      js "*** End Patch")))))

def movedInput : Json :=
  .obj [(js "tool_name", .str (js "apply_patch")), (js "tool_input", .obj [(js "command", .str movedPatch)])]

theorem movedPatch_spelled : SpelledLines ([js "*** Begin Patch"] ++
    ([movedOperation].flatMap PatchOperation.lines ++ [js "*** End Patch"])) movedPatch := by
  refine .returned (by decide) (.feed (by decide) (by decide) (.feed (by decide) (by decide) ?_))
  refine .feed (by decide) (by decide) (.returned (by decide) (.feed (by decide) (by decide) ?_))
  exact .last (by decide)

theorem plainLine_of {line : JsString} (h : (js "*** Add File:").isPrefixOf line = false ∧
    (js "*** Update File:").isPrefixOf line = false ∧ (js "*** Delete File:").isPrefixOf line = false ∧
    moveHeader.isPrefixOf line = false) : PlainLine line := by
  refine ⟨fun verb => ?_, h.2.2.2⟩
  cases verb with
  | add => exact h.1
  | update => exact h.2.1
  | delete => exact h.2.2.1

theorem movedOperation_ok : movedOperation.Ok := by
  refine ⟨fun path hpath => ?_, fun line hline => ?_⟩
  · rcases List.mem_cons.1 hpath with rfl | hpath
    · exact ⟨by decide, by decide⟩
    · rw [List.mem_singleton.1 hpath]
      exact ⟨by decide, by decide⟩
  · apply plainLine_of
    simp only [movedOperation, PatchOperation.body, List.mem_cons, List.not_mem_nil, or_false] at hline
    rcases hline with rfl | rfl | rfl
    all_goals decide

/-- Both ends of a move are claimed, and nothing else is written. -/
theorem patch_scope_move : exactClaim (js "b") ∈ (classifyToolActivity scopeHost movedInput [js "w"] []).claims ∧
    (classifyToolActivity scopeHost movedInput [js "w"] []).unknownWriteScope = false := by
  have hplain : ∀ text : String, PlainLine (js text) → ∀ line ∈ [js text], PlainLine line := by
    intro text h line hline
    rw [List.mem_singleton.1 hline]
    exact h
  have hscope := @patch_scope scopeHost movedInput _ [js "w"] [] _ _ _ _ rfl rfl rfl rfl movedPatch_spelled (hplain _
    (plainLine_of (by decide))) (fun op hop => List.mem_singleton.1 hop ▸ movedOperation_ok) (hplain _
    (plainLine_of (by decide)))
  refine ⟨(hscope.claimed _).2 ⟨movedOperation, List.mem_singleton_self _, js "b", ?_, js "b", by decide, by decide, rfl⟩,
    hscope.whole.2 ⟨List.cons_ne_nil _ _, fun op hop target htarget => ?_⟩⟩
  · exact List.mem_cons_of_mem _ (List.mem_singleton_self _)
  · obtain rfl := List.mem_singleton.1 hop
    rcases List.mem_cons.1 htarget with rfl | htarget
    · decide
    · rw [List.mem_singleton.1 htarget]
      decide

end Barbaro.Hooks
