import Barbaro.Lib.Loop
import Barbaro.Runner.ClaudeRecords

/-!
# Branch selection

A Claude trace is a graph of rows, and `last-prompt` points to the leaf of its active branch.
The pointer is rewritten in place after rows are appended, so rows after it may continue the
branch. Membership is decided from one snapshot: the ancestry of the leaf, the rest of a
response the pointer has landed in, and the one continuation that edges and the identity of
responses and calls prove. Everything else leaves the snapshot ambiguous or unsettled.

* `BranchGraph.ofRows`: the maps one pass over the rows fills.
* `computeActiveMembership`: the branch and the flags. Its loops are bounded by
  `BranchGraph.rounds`.
-/

namespace Barbaro.Claude

open Loop

/-! ## The graph of a trace -/

/-- A row that was read, at its line. -/
structure TraceRow where
  value : Json
  lineNumber : ℕ

/-- What the maps hold of a row that has a uuid. -/
structure BranchRow where
  uuid : JsString
  line : ℕ
  type : Option JsString
  parent : Option JsString
  messageId : Option JsString
  record : Json

/-- The maps by uuid in the order of their keys, the edges from parents to children as they
came, and the pointer. -/
structure BranchGraph where
  rows : List BranchRow := []
  edges : List (JsString × JsString) := []
  duplicates : List JsString := []
  pointer : Option (JsString × ℕ) := none

/-- The leaf a `last-prompt` names. -/
def pointerLeaf (value : Json) : Option JsString :=
  if equalsText (js "last-prompt") (value.get (js "type")) then textAt? "leafUuid" value else none

/-- Compaction severs `parentUuid` and moves it to `logicalParentUuid`. -/
def effectiveParent (value : Json) : Option JsString :=
  (textAt? "parentUuid" value).or (textAt? "logicalParentUuid" value)

/-- `message?.id`, if it is a string. -/
def rowMessageId (value : Json) : Option JsString := (value.get (js "message")).bind (textAt? "id")

def branchRow (uuid : JsString) (row : TraceRow) : BranchRow where
  uuid := uuid
  line := row.lineNumber
  type := textAt? "type" row.value
  parent := effectiveParent row.value
  messageId := rowMessageId row.value
  record := row.value

/-- A row in the place of another of its uuid; an id of the other that it lacks is kept. -/
def BranchRow.inPlaceOf (new old : BranchRow) : BranchRow := { new with messageId := new.messageId.or old.messageId }

def setRow (rows : List BranchRow) (new : BranchRow) : List BranchRow :=
  if rows.any (·.uuid = new.uuid) then rows.map fun old => if old.uuid = new.uuid then new.inPlaceOf old else old
  else rows ++ [new]

def BranchGraph.note (G : BranchGraph) (row : TraceRow) : BranchGraph :=
  match pointerLeaf row.value with
  | some leaf => { G with pointer := some (leaf, row.lineNumber) }
  | none =>
    match textAt? "uuid" row.value with
    | none => G
    | some uuid => { G with
        rows := setRow G.rows (branchRow uuid row)
        edges := G.edges ++ ((effectiveParent row.value).map fun parent => (parent, uuid)).toList
        duplicates := if G.rows.any (·.uuid = uuid) then add G.duplicates uuid else G.duplicates }

def BranchGraph.ofRows (rows : List TraceRow) : BranchGraph := rows.foldl BranchGraph.note {}

/-- What `===` compares of a `requestId`: an object is only equal to itself. -/
inductive RequestKey
  | missing
  | null
  | bool (b : Bool)
  | num (n : Json.Number)
  | str (s : JsString)
  | object (row : JsString)
  deriving DecidableEq, Repr

def requestKey (uuid : JsString) : Option Json → RequestKey
  | none => .missing
  | some .null => .null
  | some (.bool b) => .bool b
  | some (.num n) => .num n
  | some (.str s) => .str s
  | some (.arr _) => .object uuid
  | some (.obj _) => .object uuid

section
variable (E : Host) (G : BranchGraph)

def BranchGraph.row? (u : JsString) : Option BranchRow := G.rows.find? (·.uuid = u)
def BranchGraph.parent (u : JsString) : Option JsString := (G.row? u).bind BranchRow.parent
def BranchGraph.type (u : JsString) : Option JsString := (G.row? u).bind BranchRow.type
def BranchGraph.message (u : JsString) : Option ClaudeMessage :=
  (G.row? u).bind fun r => decodeClaudeMessage r.record

def BranchGraph.children (u : JsString) : List JsString :=
  addAll [] ((G.edges.filter fun e => e.1 = u).map (·.2))

def BranchGraph.groupOf (u : JsString) : Option JsString :=
  if G.type u = some (js "assistant") then (G.row? u).bind BranchRow.messageId else none

def BranchGraph.request (u : JsString) : RequestKey :=
  requestKey u ((G.row? u).bind fun r => r.record.get (js "requestId"))

/-- The row was appended after the pointer. -/
def BranchGraph.after (u : JsString) : Bool :=
  match G.row? u, G.pointer with
  | some r, some (_, line) => line < r.line
  | _, _ => false

def BranchGraph.isAttachment (u : JsString) : Bool := G.type u = some (js "attachment")

/-- More than enough rounds for every loop over the graph. -/
def BranchGraph.rounds : ℕ := 2 * (G.rows.length + 2) ^ 2

def BranchGraph.callIds (u : JsString) : List JsString := ((G.message u).map ClaudeMessage.callIds).getD []
def BranchGraph.resultIds (u : JsString) : List JsString := ((G.message u).map ClaudeMessage.resultIds).getD []

/-! ## Subtrees of attachments -/

/-- One round of the walk: the stack, and what was visited. -/
def attachmentRound (s : List JsString × List JsString) : Option (Round (List JsString × List JsString) Bool) :=
  match s with
  | ([], _) => some (.done true)
  | (uuid :: pending, visited) =>
    if uuid ∈ visited then some (.done false)
    else if !G.isAttachment uuid then some (.done false)
    else some (.next ((G.children uuid).reverse ++ pending, visited ++ [uuid]))

/-- Whether a branch carries only attachment sidecars. -/
def BranchGraph.isAttachmentOnlySubtree (root : JsString) : Option Bool :=
  run (attachmentRound G) G.rounds ([root], [])

/-- The children that were appended after the pointer and carry more than sidecars. -/
def BranchGraph.continuing (us : List JsString) : Option (List JsString) :=
  keep (fun u => (G.isAttachmentOnlySubtree u).map (!·)) (us.filter G.after)

/-! ## Parallel continuations -/

/-- A call and its result are paired: there is one of each, the call is accepted and of the
group, and the source the result names is the row of the call. -/
def pairedOnce (currentGroup : JsString) (accepted : List JsString) (source : Option Json) (id : JsString) : Bool :=
  let calls := (G.rows.filter fun r => r.type = some (js "assistant")).flatMap fun r =>
    ((G.callIds r.uuid).filter (· = id)).map fun _ => r.uuid
  let results := (G.rows.filter fun r => r.type = some (js "user")).flatMap fun r =>
    (G.resultIds r.uuid).filter (· = id)
  calls.all (fun u => ((G.message u).bind ClaudeMessage.id) = some currentGroup && u ∈ accepted) &&
    calls.length = 1 && results.length = 1 &&
    (match source with
      | none => true
      | some v => calls.any fun u => equalsText u (some v))

/-- A fork is parallel only when response identity or unique pairs of calls and results prove it. -/
def isParallelContinuation (children : List JsString) (currentGroup : Option JsString)
    (ancestry : List JsString) (currentRequest : RequestKey) : Bool :=
  let id (u : JsString) : Option JsString := (G.message u).bind ClaudeMessage.id
  if children.all fun u => G.type u = some (js "assistant") then
    match children with
    | [] => false
    | first :: _ => (id first).isSome && children.all fun u => id u = id first && G.request u = G.request first
  else
    match currentGroup with
    | none => false
    | some group =>
      let responses := children.filter fun u => G.type u = some (js "assistant")
      let others := children.filter fun u => G.type u ≠ some (js "assistant")
      others.all (fun u => G.type u = some (js "user")) &&
        responses.all (fun u => id u = some group && G.request u = currentRequest) &&
        (others.flatMap G.resultIds).Nodup &&
        others.all fun u =>
          let content := ((G.message u).map ClaudeMessage.content).getD []
          content ≠ [] && content.all ClaudeContentBlock.isToolResult &&
            (G.resultIds u).all (pairedOnce G group (ancestry ++ responses)
              ((G.row? u).bind fun r => r.record.get (js "sourceToolAssistantUUID")))

/-- No chained response is admitted while any of its accepted calls is unsettled. -/
def isSettledResponseGroup (group : JsString) (ancestry : List JsString) : Bool :=
  let calls := (ancestry.filter fun u => G.type u = some (js "assistant") &&
    ((G.message u).bind ClaudeMessage.id) = some group).flatMap G.callIds
  let matching (r : BranchRow) : List JsString := (G.resultIds r.uuid).filter (· ∈ calls)
  let resultRows := (G.rows.filter fun r => r.type = some (js "user") && matching r ≠ [])
  calls.Nodup && (addAll [] (resultRows.flatMap matching)).length = calls.length &&
    (resultRows = [] || isParallelContinuation G (resultRows.map BranchRow.uuid) (some group) ancestry .missing)

/-! ## The leaf and its anchor -/

/-- The chain of parents; a cursor that is left has closed a cycle. -/
def ancestryRound (s : List JsString × Option JsString) :
    Option (Round (List JsString × Option JsString) (List JsString × Option JsString)) :=
  match s with
  | (ancestry, none) => some (.done (ancestry, none))
  | (ancestry, some cursor) =>
    if cursor ∈ ancestry then some (.done (ancestry, some cursor))
    else some (.next (ancestry ++ [cursor], G.parent cursor))

def isHumanRow (u : JsString) : Bool :=
  match G.row? u with
  | none => false
  | some r =>
    match decodeClaudeEnvelope E r.record with
    | .ok envelope => (classifyUserRecord envelope (decodeClaudeMessage r.record) false).isHuman
    | .error _ => false

/-- The response the pointer has landed in. -/
structure ResponseAnchor where
  uuid : JsString
  group : JsString
  request : RequestKey

/-- The nearest row of a response; an older one cannot lend authority across a newer human prompt. -/
def findAnchor : List JsString → Option ResponseAnchor
  | [] => none
  | u :: us =>
    match G.groupOf u with
    | some group => some ⟨u, group, G.request u⟩
    | none => if isHumanRow E G u then none else findAnchor us

/-! ## Settling the anchored response -/

section
variable (anchor : ResponseAnchor) (ancestry : List JsString)

def sameResponse (u : JsString) : Bool := G.groupOf u = some anchor.group && G.request u = anchor.request

/-- Candidate ids permit discovery only. -/
def candidateCallIds : List JsString :=
  (G.rows.filter fun r => sameResponse G anchor r.uuid).flatMap fun r => G.callIds r.uuid

/-- The blocks of a message that are none are not content. -/
def rawContentLength (record : Json) : Option ℕ :=
  match (record.get (js "message")).bind fun m => m.get (js "content") with
  | some (.arr blocks) => some blocks.length
  | _ => none

def candidateResult (u : JsString) : Bool :=
  match G.row? u with
  | none => false
  | some r =>
    let content := ((G.message u).map ClaudeMessage.content).getD []
    G.type u = some (js "user") && content ≠ [] && rawContentLength r.record = some content.length &&
      content.all ClaudeContentBlock.isToolResult && (G.resultIds u).all (· ∈ candidateCallIds G anchor)

/-- The discovery: the stack, the component, and the rows of the response in it. -/
structure Discovery where
  pending : List JsString
  component : List JsString := []
  group : List JsString := []

/-- A metadata-only side branch is not a bridge. -/
def isSideBranch (u : JsString) : Option Bool :=
  if u ∈ ancestry then some false else G.isAttachmentOnlySubtree u

/-- Sibling rows may share the entry parent of the response. -/
def discoverFrom (u : JsString) : List JsString :=
  (match G.parent u with
    | none => []
    | some parent => parent :: (if sameResponse G anchor u then G.children parent else [])) ++ G.children u

def discoveryRound (s : Discovery) : Option (Round Discovery Discovery) :=
  match s.pending with
  | [] => some (.done s)
  | u :: pending =>
    if u ∈ s.component then some (.next { s with pending })
    else if !sameResponse G anchor u && !G.isAttachment u && !candidateResult G anchor u then
      some (.next { s with pending })
    else
      (isSideBranch G ancestry u).map fun side =>
        if side then .next { s with pending }
        else .next {
          pending := (discoverFrom G anchor u).reverse ++ pending
          component := s.component ++ [u]
          group := if sameResponse G anchor u then s.group ++ [u] else s.group }

/-- One way up inside the component: what it has passed, where it stands, and whether it has
met a duplicate or itself. -/
structure Climb where
  seen : List JsString := []
  cursor : Option JsString
  flagged : Bool := false

def climbRound (component : List JsString) (s : Climb) : Option (Round Climb Bool) :=
  match s.cursor with
  | none => some (.done s.flagged)
  | some cursor =>
    if cursor ∉ component then some (.done s.flagged)
    else if cursor ∈ s.seen then some (.done true)
    else some (.next ⟨s.seen ++ [cursor], G.parent cursor, s.flagged || cursor ∈ G.duplicates⟩)

/-- The way from a row of the response up to the next one, or out of the component. -/
def bridgeRound (component group : List JsString) (s : List JsString × Option JsString) :
    Option (Round (List JsString × Option JsString) (List JsString)) :=
  match s with
  | (seen, none) => some (.done seen)
  | (seen, some cursor) =>
    if cursor ∈ component ∧ cursor ∉ group ∧ cursor ∉ seen then
      some (.next (seen ++ [cursor], G.parent cursor))
    else some (.done seen)

/-- The way from a result up to the response: over results and attachments only. -/
def resultRound (group results : List JsString) (s : List JsString × Option JsString) :
    Option (Round (List JsString × Option JsString) (List JsString × Bool)) :=
  match s with
  | (seen, none) => some (.done (seen, true))
  | (seen, some cursor) =>
    if cursor ∈ group then some (.done (seen, false))
    else if cursor ∈ seen ∨ cursor ∈ G.duplicates ∨ (cursor ∉ results ∧ G.isAttachment cursor = false) then
      some (.done (seen, true))
    else some (.next (seen ++ [cursor], G.parent cursor))

/-- What the rest of the walk starts from. -/
structure Walk where
  ancestry : List JsString
  frontier : List JsString
  group : Option JsString
  request : RequestKey
  /-- The frontier has been settled in one step with its response. -/
  seeded : Bool := false
  ambiguous : Bool
  unsettled : Bool := false

/-- The rows that have a result of one of the calls. -/
def resultRowsOf (calls : List JsString) : List JsString :=
  (G.rows.filter fun r => r.type = some (js "user") && (G.resultIds r.uuid).any (· ∈ calls)).map BranchRow.uuid

/-- What refuses the component whatever its bridges are. -/
def refusedComponent (d : Discovery) (calls results : List JsString) : Bool :=
  !calls.Nodup ||
    G.rows.any (fun r => G.groupOf r.uuid = some anchor.group && r.uuid ∉ d.group) ||
    results.any (fun u => !candidateResult G anchor u) ||
    d.component.any (fun u => G.type u = some (js "user") && u ∉ results)

/-- Close the anchored response, if it has calls: it is admitted as a whole, with the bridges
between its rows and to its results, or not at all. -/
def settleComponent (leaf : JsString) (d : Discovery) (start : Walk) : Option Walk :=
  if d.group.all fun u => G.callIds u = [] then some start
  else do
    let calls := d.group.flatMap G.callIds
    let results := resultRowsOf G calls
    let climbs ← d.component.mapM fun u => run (climbRound G d.component) G.rounds { cursor := some u }
    let bridges ← d.group.mapM fun u => run (bridgeRound G d.component d.group) G.rounds ([], G.parent u)
    let ways ← results.mapM fun u => run (resultRound G d.group results) G.rounds ([], some u)
    let accepted := addAll start.ancestry d.group
    let paired := results = [] || isParallelContinuation G results (some anchor.group) accepted anchor.request
    let ambiguous := start.ambiguous || climbs.any id || refusedComponent G anchor d calls results ||
      ways.any (·.2) || !paired
    let unsettled := !ambiguous && !isSettledResponseGroup G anchor.group accepted
    let members := d.group ++ bridges.flatten ++ (ways.map (·.1)).flatten
    return if ambiguous || unsettled then { start with ambiguous, unsettled }
      else { start with
        ancestry := addAll start.ancestry members
        frontier := addAll [] (leaf :: members)
        seeded := true
        ambiguous }

def settleAnchor (leaf : JsString) (start : Walk) : Option Walk := do
  let d ← run (discoveryRound G anchor start.ancestry) G.rounds { pending := [anchor.uuid] }
  settleComponent G anchor leaf d start

end

/-! ## The continuation -/

/-- The next semantic rows, while they are gathered. -/
structure Gathering where
  pending : List JsString
  semantic : List JsString := []
  ancestry : List JsString
  ambiguous : Bool := false
  extended : Bool := false

/-- Attachments are flattened: they do not choose a semantic branch. -/
def flattenRound (s : Gathering) : Option (Round Gathering Gathering) :=
  match s.pending with
  | [] => some (.done s)
  | child :: pending =>
    if child ∈ s.ancestry then some (.done { s with pending, ambiguous := true })
    else if !G.isAttachment child then some (.next { s with pending, semantic := s.semantic ++ [child] })
    else
      (G.continuing (G.children child)).map fun children =>
        .next { s with pending := pending ++ children, ancestry := s.ancestry ++ [child] }

section
variable (group : Option JsString) (request : RequestKey)

/-- The rows of the current response among the semantic ones are consumed, their children pending. -/
def consumeResponse (s : Gathering) (responseRows : List JsString) : Option Gathering :=
  (responseRows.mapM fun u => G.continuing (G.children u)).map fun children => { s with
    pending := children.flatten
    semantic := s.semantic.filter (· ∉ responseRows)
    ancestry := addAll s.ancestry responseRows
    extended := true }

/-- A frontier is validated before another row of the current response is consumed. -/
def gatherRound (s : Gathering) : Option (Round Gathering Gathering) := do
  let s ← run (flattenRound G) (G.rounds + s.pending.length) s
  let responseRows := s.semantic.filter fun u => group.isSome && G.groupOf u = group
  if s.ambiguous || responseRows = [] then return .done s
  else if responseRows.any (fun u => G.request u ≠ request) ||
      (s.semantic.length > 1 && !isParallelContinuation G s.semantic group s.ancestry request) then
    return .done { s with ambiguous := true }
  else (consumeResponse G s responseRows).map .next

/-- What was gathered is no continuation. -/
def refusedGathering (s : Gathering) : Bool :=
  (s.extended && group.any fun group => !isSettledResponseGroup G group s.ancestry) ||
    ((s.semantic.length > 1 || (s.extended && s.semantic.any fun u => G.resultIds u ≠ [])) &&
      !isParallelContinuation G s.semantic group s.ancestry request)

end

/-- The children of the frontier that continue it. -/
def nextChildren (s : Walk) : Option (List JsString) :=
  G.continuing ((addAll [] (s.frontier.flatMap G.children)).filter fun u => !(s.seeded && u ∈ s.ancestry))

/-- The response after the semantic rows: a row of one opens it, a human prompt closes it. -/
def responseAfter (first : JsString) (group : Option JsString) (request : RequestKey) :
    Option JsString × RequestKey :=
  match G.groupOf first with
  | some next => (some next, G.request first)
  | none => if isHumanRow E G first then (none, .missing) else (group, request)

def walkRound (s : Walk) : Option (Round Walk Walk) :=
  if s.ambiguous || s.unsettled then some (.done s)
  else do
    let children ← nextChildren G s
    if children = [] then return .done { s with seeded := false }
    else
      let g ← run (gatherRound G s.group s.request) G.rounds { pending := children, ancestry := s.ancestry }
      if refusedGathering G s.group s.request g then
        return .done { s with ancestry := g.ancestry, seeded := false, ambiguous := true }
      else
        match g.semantic with
        | [] => return .done { s with ancestry := g.ancestry, seeded := false, ambiguous := g.ambiguous }
        | first :: _ =>
          let (group, request) := responseAfter E G first s.group s.request
          return .next {
            ancestry := addAll g.ancestry g.semantic
            frontier := g.semantic
            group
            request
            ambiguous := g.ambiguous }

/-! ## Membership -/

/-- The ids of the calls a record has result blocks of, whatever its type. -/
def rawResultIds (value : Json) : List JsString :=
  match (value.get (js "message")).bind fun m => m.get (js "content") with
  | some (.arr blocks) => blocks.filterMap fun block =>
      if equalsText (js "tool_result") (block.get (js "type")) then textAt? "tool_use_id" block else none
  | _ => []

def onPath (ancestry : List JsString) (row : TraceRow) : Bool :=
  (textAt? "uuid" row.value).any (· ∈ ancestry)

def onPathResultIds (rows : List TraceRow) (ancestry : List JsString) : List JsString :=
  addAll [] ((rows.filter (onPath ancestry)).flatMap fun row => rawResultIds row.value)

/-- Several results off the path compete, and none on it decides. -/
def ambiguousResultIds (rows : List TraceRow) (ancestry : List JsString) : List JsString :=
  let offPath := (rows.filter fun row => !onPath ancestry row).flatMap fun row => rawResultIds row.value
  addAll [] (offPath.filter fun id => offPath.count id > 1 && id ∉ onPathResultIds rows ancestry)

/-- The branch of a usable pointer. -/
structure ActiveBranch where
  ancestry : List JsString
  activeMessageIds : List JsString
  unsettledResponseGroup : Bool
  onPathResultIds : List JsString
  ambiguousResultIds : List JsString
  deriving DecidableEq, Repr

structure ActiveMembership where
  /-- The snapshot contains a fork. -/
  hasFork : Bool
  ambiguousPointerContinuation : Bool
  /-- There is a branch if a `last-prompt` pointer was present and usable. -/
  branch : Option ActiveBranch
  deriving DecidableEq, Repr

def BranchGraph.hasFork : Bool := G.edges.any fun e => (G.edges.filter fun e' => e'.1 = e.1).length > 1

/-- The leaf of a pointer that is usable. -/
def BranchGraph.leaf? : Option JsString :=
  (G.pointer.map (·.1)).filter fun leaf => leaf ≠ [] && (G.row? leaf).isSome

/-- Every semantic row after the pointer must belong to the continuation. -/
def strayRow (ancestry : List JsString) : Bool :=
  G.rows.any fun r => G.after r.uuid && r.uuid ∉ ancestry && !G.isAttachment r.uuid

/-- The branch from the leaf, with its two flags. -/
def walkBranch (leaf : JsString) : Option Walk := do
  let (ancestry, cycle) ← run (ancestryRound G) G.rounds ([], some leaf)
  let ambiguous := cycle.isSome || G.duplicates.any G.after
  let start : Walk :=
    { ancestry, frontier := [leaf], group := none, request := .missing, ambiguous }
  let seeded ← match findAnchor E G ancestry with
    | none => some start
    | some anchor => settleAnchor G anchor leaf { start with group := some anchor.group, request := anchor.request }
  let walk ← run (walkRound E G) G.rounds seeded
  return { walk with
    ambiguous := walk.ambiguous || (!walk.unsettled && strayRow G walk.ancestry) }

def computeActiveMembership (rows : List TraceRow) : Option ActiveMembership :=
  let G := BranchGraph.ofRows rows
  match G.leaf? with
  | none => some { hasFork := G.hasFork, ambiguousPointerContinuation := false, branch := none }
  | some leaf => (walkBranch E G leaf).map fun walk => {
      hasFork := G.hasFork
      ambiguousPointerContinuation := walk.ambiguous
      branch := some {
        ancestry := walk.ancestry
        activeMessageIds := addAll [] (walk.ancestry.filterMap fun u => (G.row? u).bind BranchRow.messageId)
        unsettledResponseGroup := walk.unsettled
        onPathResultIds := onPathResultIds rows walk.ancestry
        ambiguousResultIds := ambiguousResultIds rows walk.ancestry } }

end

end Barbaro.Claude
