import Barbaro.Core.Content
import Barbaro.Lib.JsonExtent
import Barbaro.Output.AppendUnique
import Barbaro.Reader.Budget
import Barbaro.Reader.Turn

/-!
# The projection of a turn

A turn is shown within a budget. What is always shown comes first, with every text cut to
nothing and no action or reference; if that fits, the request, the response, the actions and
the references are let in one after the other, each as far as there is room.

* `projectTurn`: the projection.
* `projectTurn_iff`: it is there exactly if the least projection fits.
-/

namespace Barbaro

structure ReaderProjectionOptions where
  byteBudget : ℕ
  requestExcerptBytes : ℕ := 1024
  responseExcerptBytes : ℕ := 2048
  actionExcerptBytes : ℕ := 256

def itemsOf (key : String) (v : Json) : List Json := (itemsAt? key v).getD []

/-- `{ key: value[key] }`, where an absent member stays absent. -/
def copyMember (key : String) (v : Json) : List (JsString × Json) := optionalMember key (v.get (js key))

/-! ## Parts of a turn -/

/-- Truncate only at Unicode-code-point boundaries. -/
def truncateReaderUtf8 (value : JsString) (maximumBytes : ℕ) : JsString :=
  if byteLength value ≤ maximumBytes then value else truncateUtf8 value maximumBytes

/-- `compareUtf16CodeUnits(left[name], right[name]) || left.count - right.count` -/
def compareCounted (name : String) (left right : Json) : Bool :=
  (compareUtf16CodeUnits (textAt name left) (textAt name right)).then
    (compare (intAt "count" left) (intAt "count" right)) ≠ .gt

def projectReaderContent (content : Json) (maximumTextBytes : ℕ) : Json :=
  let canonicalBytes := byteLength (textAt "text" content)
  let text := truncateReaderUtf8 (textAt "text" content) maximumTextBytes
  .obj ([(js "text", .str text)] ++ copyMember "fidelity" content ++
    [(js "truncated", .obj (optionalMember "canonical" (content.get (js "truncated")) ++
        [(js "projection", .bool (byteLength text < canonicalBytes))])),
      (js "utf8_bytes", .obj [
        (js "shown", natJson (byteLength text)), (js "canonical", natJson canonicalBytes),
        (js "original", (content.get (js "original_utf8_bytes")).getD (natJson canonicalBytes))]),
      (js "redactions", .arr ((itemsOf "redactions" content).mergeSort (compareCounted "kind")))])

/-- A content that may be absent. -/
def projectOptionalContent (key : String) (v : Json) (maximumTextBytes : ℕ) : List (JsString × Json) :=
  optionalMember key ((v.get (js key)).map (fun content => projectReaderContent content maximumTextBytes))

def projectReaderAction (action : Json) (maximumTextBytes : ℕ) : Json :=
  let kind := action.get (js "kind")
  let content := fun key => projectOptionalContent key action maximumTextBytes
  .obj (copyMember "action_id" action ++ copyMember "kind" action ++ copyMember "outcome" action ++
    [(js "source_refs", natJson (itemsOf "source_refs" action).length)] ++
    (if equalsText (js "file_change") kind then
      copyMember "operation" action ++ copyMember "path" action ++ copyMember "previous_path" action ++
        copyMember "added_lines" action ++ copyMember "removed_lines" action
    else if equalsText (js "command") kind then
      content "command" ++ copyMember "exit_code" action ++ content "failure_excerpt"
    else if equalsText (js "test") kind then
      content "command" ++ copyMember "exit_code" action ++ copyMember "passed" action ++
        copyMember "failed" action ++ content "failure_excerpt"
    else if equalsText (js "tool") kind then copyMember "tool_name" action ++ content "summary"
    else content "summary"))

def boundedItems (all : List Json) (shown : ℕ) : Json :=
  .obj [(js "shown", natJson shown), (js "total", natJson all.length), (js "items", .arr (all.take shown))]

/-- What is shown of a turn besides what is always shown. -/
structure TurnCut where
  requestBytes : ℕ := 0
  responseBytes : ℕ := 0
  /-- The text bytes of each action that is shown. -/
  actionTextBytes : List ℕ := []
  evidenceCount : ℕ := 0
  changedPathCount : ℕ := 0
  subagentEvidenceCount : ℕ := 0

/-- `build` -/
def buildTurn (turn : Json) (c : TurnCut) : Json :=
  let subagents := (turn.get (js "subagents")).getD .null
  let actions := itemsOf "actions" turn
  .obj (copyMember "turn_id" turn ++ copyMember "provider" turn ++ copyMember "session_id" turn ++
    copyMember "sequence" turn ++ copyMember "workstream_id" turn ++ copyMember "agent_id" turn ++
    copyMember "parent_turn_id" turn ++ copyMember "started_at" turn ++ copyMember "ended_at" turn ++
    copyMember "outcome" turn ++
    projectOptionalContent "request" turn c.requestBytes ++
    projectOptionalContent "response" turn c.responseBytes ++
    [(js "actions", .obj [
        (js "shown", natJson c.actionTextBytes.length), (js "total", natJson actions.length),
        (js "items", .arr ((actions.zip c.actionTextBytes).map fun a => projectReaderAction a.1 a.2))]),
      (js "evidence_refs", boundedItems (itemsOf "evidence_refs" turn) c.evidenceCount),
      (js "subagents", .obj (copyMember "total" subagents ++
        [(js "by_role", .arr ((itemsOf "by_role" subagents).mergeSort (compareCounted "role")))] ++
        copyMember "outcomes" subagents ++
        [(js "changed_paths", boundedItems (itemsOf "changed_paths" subagents) c.changedPathCount),
          (js "evidence_refs", boundedItems (itemsOf "evidence_refs" subagents) c.subagentEvidenceCount)])),
      (js "source_refs", natJson (itemsOf "source_refs" turn).length)])

/-! ## Fitting the budget -/

/-- `wrapReaderProjection`, where the value may hold a number JSON cannot express. -/
def wrapReaderJson (value : Json) (byteBudget : ℕ) : Except ProjectionFailure (ReaderProjection Json) :=
  match assertReaderByteBudget byteBudget with
  | .error failure => .error (.other failure)
  | .ok () =>
    if hasInfinite value then .error (.other (.typeError "Non-finite number"))
    else wrapReaderProjection id value byteBudget

def readerProjectionFits (value : Json) (byteBudget : ℕ) : Except ProjectionFailure Bool :=
  match wrapReaderJson value byteBudget with
  | .ok _ => .ok true
  | .error (.budgetTooSmall _ _) => .ok false
  | .error failure => .error failure

/-- The rounds of a binary search in `[low, high)`, which shrinks in each of them. -/
def maximizeLoop {ε : Type} (accepts : ℕ → Except ε Bool) :
    ℕ → ℕ → ℕ → Option ℕ → Except ε (Option ℕ)
  | 0, _, _, best => .ok best
  | rounds + 1, low, high, best =>
    if low < high then do
      let middle := low + (high - 1 - low) / 2
      if ← accepts middle then maximizeLoop accepts rounds (middle + 1) high (some middle)
      else maximizeLoop accepts rounds low middle best
    else .ok best

/-- The greatest integer in [0, maximum] accepted by a monotonic test. -/
def maximizeReaderBudget {ε : Type} (maximum : ℕ) (accepts : ℕ → Except ε Bool) : Except ε (Option ℕ) := do
  let zero ← accepts 0
  maximizeLoop accepts (maximum + 1) 0 (maximum + 1) (if zero then some 0 else none)

/-- As many of the `left` items after the shown ones as fit. -/
def appendWhileFits {ε : Type} (tryCount : ℕ → Except ε Bool) : ℕ → ℕ → Except ε ℕ
  | 0, shown => .ok shown
  | left + 1, shown => do
    if ← tryCount (shown + 1) then appendWhileFits tryCount left (shown + 1) else return shown

section
variable {ε : Type} (fits : TurnCut → Except ε Bool)

/-- A text grows as far as there is room. -/
def growText (maximum : ℕ) (cut : ℕ → TurnCut) : Except ε TurnCut := do
  let best ← maximizeReaderBudget maximum (fun n => fits (cut n))
  return cut (best.getD 0)

def growResponse (maximum : ℕ) (turn : Json) (c : TurnCut) : Except ε TurnCut :=
  if (turn.get (js "response")).isSome then growText fits maximum (fun n => { c with responseBytes := n })
  else .ok c

/-- The actions are let in one after the other, until one does not fit. -/
def growActions (maximum : ℕ) : List Json → TurnCut → Except ε TurnCut
  | [], c => .ok c
  | _ :: actions, c => do
    let next := fun n => { c with actionTextBytes := c.actionTextBytes ++ [n] }
    match ← maximizeReaderBudget maximum (fun n => fits (next n)) with
    | none => return c
    | some n => growActions maximum actions (next n)

def growItems (total : ℕ) (cut : ℕ → TurnCut) : Except ε TurnCut := do
  let shown ← appendWhileFits (fun n => fits (cut n)) total 0
  return cut shown

/-- All that is let in, in this order. -/
def growTurn (turn : Json) (options : ReaderProjectionOptions) (c : TurnCut) : Except ε TurnCut := do
  let subagents := (turn.get (js "subagents")).getD .null
  let c ← growText fits options.requestExcerptBytes (fun n => { c with requestBytes := n })
  let c ← growResponse fits options.responseExcerptBytes turn c
  let c ← growActions fits options.actionExcerptBytes (itemsOf "actions" turn) c
  let c ← growItems fits (itemsOf "evidence_refs" turn).length (fun n => { c with evidenceCount := n })
  let c ← growItems fits (itemsOf "changed_paths" subagents).length (fun n => { c with changedPathCount := n })
  growItems fits (itemsOf "evidence_refs" subagents).length (fun n => { c with subagentEvidenceCount := n })

end

/-- `projectionLimits`: the excerpts are bounded as the budget is. -/
def projectionLimits (options : ReaderProjectionOptions) : Except Failure Unit := do
  assertReaderByteBudget options.byteBudget
  if [options.requestExcerptBytes, options.responseExcerptBytes, options.actionExcerptBytes].any
      (fun n => n > maxSafeInteger) then
    .error (.rangeError "excerpt bytes must be a non-negative safe integer")
  else return ()

def projectTurn (turn : Json) (options : ReaderProjectionOptions) :
    Except ProjectionFailure (ReaderProjection Json) :=
  match projectionLimits options with
  | .error failure => .error (.other failure)
  | .ok () => do
    -- a deterministic minimum that tells all that is left out
    let _ ← wrapReaderJson (buildTurn turn {}) options.byteBudget
    let c ← growTurn (fun c => readerProjectionFits (buildTurn turn c) options.byteBudget) turn options {}
    wrapReaderJson (buildTurn turn c) options.byteBudget

/-! ## Ordinary values -/

mutual

/-- Every number in the value is finite and prints in ASCII. -/
def isOrdinary : Json → Bool
  | .num (.int _) => true
  | .num (.other t) => t.all (fun u => u.toNat < 128) && !isInfinite (.other t)
  | .arr vs => isOrdinaryItems vs
  | .obj fs => isOrdinaryFields fs
  | _ => true

def isOrdinaryItems : List Json → Bool
  | [] => true
  | v :: vs => isOrdinary v && isOrdinaryItems vs

def isOrdinaryFields : List (JsString × Json) → Bool
  | [] => true
  | (_, v) :: fs => isOrdinary v && isOrdinaryFields fs

end

theorem isOrdinaryItems_iff {vs : List Json} : isOrdinaryItems vs = true ↔ ∀ v ∈ vs, isOrdinary v = true := by
  induction vs with
  | nil => simp [isOrdinaryItems]
  | cons v vs ih => simp [isOrdinaryItems, ih]

theorem isOrdinaryFields_iff {fs : List (JsString × Json)} :
    isOrdinaryFields fs = true ↔ ∀ f ∈ fs, isOrdinary f.2 = true := by
  induction fs with
  | nil => simp [isOrdinaryFields]
  | cons f fs ih => simp [isOrdinaryFields, ih]

@[simp] theorem isOrdinary_arr {vs : List Json} : isOrdinary (.arr vs) = true ↔ ∀ v ∈ vs, isOrdinary v = true := by
  rw [isOrdinary, isOrdinaryItems_iff]

@[simp] theorem isOrdinary_obj {fs : List (JsString × Json)} :
    isOrdinary (.obj fs) = true ↔ ∀ f ∈ fs, isOrdinary f.2 = true := by
  rw [isOrdinary, isOrdinaryFields_iff]

@[simp] theorem isOrdinary_str (s : JsString) : isOrdinary (.str s) = true := rfl

@[simp] theorem isOrdinary_bool (b : Bool) : isOrdinary (.bool b) = true := rfl

@[simp] theorem isOrdinary_nat (n : ℕ) : isOrdinary (natJson n) = true := rfl

mutual

theorem isOrdinary_finite : ∀ {v : Json}, isOrdinary v = true → hasInfinite v = false
  | .null, _ => rfl
  | .bool _, _ => rfl
  | .str _, _ => rfl
  | .num (.int _), _ => rfl
  | .num (.other t), h => by
    simp only [isOrdinary, Bool.and_eq_true, Bool.not_eq_true'] at h
    exact h.2
  | .arr _, h => isOrdinaryItems_finite h
  | .obj _, h => isOrdinaryFields_finite h

theorem isOrdinaryItems_finite : ∀ {vs : List Json}, isOrdinaryItems vs = true → hasInfiniteItems vs = false
  | [], _ => rfl
  | v :: vs, h => by
    simp only [isOrdinaryItems, Bool.and_eq_true] at h
    rw [hasInfiniteItems, isOrdinary_finite h.1, isOrdinaryItems_finite h.2, Bool.or_false]

theorem isOrdinaryFields_finite :
    ∀ {fs : List (JsString × Json)}, isOrdinaryFields fs = true → hasInfiniteFields fs = false
  | [], _ => rfl
  | (_, v) :: fs, h => by
    simp only [isOrdinaryFields, Bool.and_eq_true] at h
    rw [hasInfiniteFields, isOrdinary_finite h.1, isOrdinaryFields_finite h.2, Bool.or_false]

end

theorem stable_int_wellFormed (z : ℤ) : Utf16.WellFormed (stableStringify (.num (.int z))) := by
  have htext : stableStringify (.num (.int z)) = (Json.Number.int z).text := rfl
  refine .plain fun u hu => ?_
  rw [htext, Json.Number.text] at hu
  split at hu
  · rcases List.mem_cons.1 hu with rfl | hu
    · decide
    · have := decDigits_ascii _ u hu
      omega
  · have := decDigits_ascii _ u hu
    omega

mutual

theorem isOrdinary_stable : ∀ {v : Json}, isOrdinary v = true → Utf16.WellFormed (stableStringify v)
  | .null, _ => .of_all (by decide)
  | .bool b, _ => stable_bool_wellFormed b
  | .str s, _ => stable_str_wellFormed s
  | .num (.int z), _ => stable_int_wellFormed z
  | .num (.other t), h => by
    simp only [isOrdinary, Bool.and_eq_true, List.all_eq_true, decide_eq_true_eq] at h
    refine .plain fun u hu => ?_
    have := h.1 u hu
    omega
  | .arr [], _ => .of_all (by decide)
  | .arr (v :: vs), h => by
    have hitems : isOrdinaryItems (v :: vs) = true := h
    exact (stable_arr (by simp) (isOrdinaryItems_stable hitems)).1
  | .obj [], _ => .of_all (by decide)
  | .obj (f :: fs), h => by
    have hfields : isOrdinaryFields (f :: fs) = true := h
    exact (stable_obj (by simp) (isOrdinaryFields_stable hfields)).1

theorem isOrdinaryItems_stable : ∀ {vs : List Json}, isOrdinaryItems vs = true →
    ∀ v ∈ vs, Utf16.WellFormed (stableStringify v)
  | [], _ => by simp
  | v :: vs, h => by
    simp only [isOrdinaryItems, Bool.and_eq_true] at h
    exact List.forall_mem_cons.2 ⟨isOrdinary_stable h.1, isOrdinaryItems_stable h.2⟩

theorem isOrdinaryFields_stable : ∀ {fs : List (JsString × Json)}, isOrdinaryFields fs = true →
    ∀ f ∈ fs, Utf16.WellFormed (stableStringify f.2)
  | [], _ => by simp
  | (_, v) :: fs, h => by
    simp only [isOrdinaryFields, Bool.and_eq_true] at h
    exact List.forall_mem_cons.2 ⟨isOrdinary_stable h.1, isOrdinaryFields_stable h.2⟩

end

/-! ## The parts of an ordinary turn -/

theorem isOrdinary_get {v w : Json} {k : JsString} (h : isOrdinary v = true) (hget : v.get k = some w) :
    isOrdinary w = true := by
  cases v with
  | obj fs =>
    obtain ⟨f, hf, rfl⟩ : ∃ f ∈ fs, f.2 = w := by
      exact ⟨(k, w), Json.mem_of_lookup hget, rfl⟩
    exact isOrdinary_obj.1 h f hf
  | _ => cases hget

theorem isOrdinary_itemsOf {v : Json} {key : String} (h : isOrdinary v = true) :
    ∀ w ∈ itemsOf key v, isOrdinary w = true := by
  unfold itemsOf itemsAt?
  split
  · next vs hvs => exact isOrdinary_arr.1 (isOrdinary_get h hvs)
  · simp

theorem isOrdinary_copy {v : Json} {key : String} (h : isOrdinary v = true) :
    ∀ f ∈ copyMember key v, isOrdinary f.2 = true := by
  unfold copyMember optionalMember
  split
  · next w hw => simp [isOrdinary_get h hw]
  · simp

theorem isOrdinary_content {content : Json} {maximumTextBytes : ℕ} (h : isOrdinary content = true) :
    isOrdinary (projectReaderContent content maximumTextBytes) = true := by
  have hfidelity := @isOrdinary_copy _ "fidelity" h
  have horiginal : isOrdinary ((content.get (js "original_utf8_bytes")).getD
      (natJson (byteLength (textAt "text" content)))) = true := by
    rcases hget : content.get (js "original_utf8_bytes") with _ | w
    · rfl
    · exact isOrdinary_get h hget
  have htruncated : ∀ f ∈ optionalMember "canonical" (content.get (js "truncated")), isOrdinary f.2 = true := by
    unfold optionalMember
    split
    · next w hw => simp [isOrdinary_get h hw]
    · simp
  have hredactions := @isOrdinary_itemsOf _ "redactions" h
  rw [projectReaderContent, isOrdinary_obj]
  simp only [List.mem_append, List.mem_cons, List.not_mem_nil, or_false]
  rintro f ((rfl | hf) | rfl | rfl | rfl)
  · rfl
  · exact hfidelity f hf
  · simp only [isOrdinary_obj, List.mem_append, List.mem_singleton]
    rintro g (hg | rfl)
    · exact htruncated g hg
    · rfl
  · simp [horiginal]
  · simpa [isOrdinary_arr, List.mem_mergeSort] using hredactions

theorem isOrdinary_optionalContent {v : Json} {key : String} {maximumTextBytes : ℕ} (h : isOrdinary v = true) :
    ∀ f ∈ projectOptionalContent key v maximumTextBytes, isOrdinary f.2 = true := by
  unfold projectOptionalContent optionalMember
  rcases hget : v.get (js key) with _ | content
  · simp
  · simp [isOrdinary_content (isOrdinary_get h hget)]

theorem isOrdinary_action {action : Json} {maximumTextBytes : ℕ} (h : isOrdinary action = true) :
    isOrdinary (projectReaderAction action maximumTextBytes) = true := by
  have hcopy : ∀ key, ∀ f ∈ copyMember key action, isOrdinary f.2 = true := fun key => isOrdinary_copy h
  have hcontent : ∀ key, ∀ f ∈ projectOptionalContent key action maximumTextBytes, isOrdinary f.2 = true :=
    fun key => isOrdinary_optionalContent h
  rw [projectReaderAction, isOrdinary_obj]
  simp only [List.forall_mem_append, List.mem_singleton, forall_eq, isOrdinary_nat]
  refine ⟨⟨⟨⟨hcopy _, hcopy _⟩, hcopy _⟩, trivial⟩, ?_⟩
  split_ifs
  · simp only [List.forall_mem_append]
    exact ⟨⟨⟨⟨hcopy _, hcopy _⟩, hcopy _⟩, hcopy _⟩, hcopy _⟩
  · simp only [List.forall_mem_append]
    exact ⟨⟨hcontent _, hcopy _⟩, hcontent _⟩
  · simp only [List.forall_mem_append]
    exact ⟨⟨⟨⟨hcontent _, hcopy _⟩, hcopy _⟩, hcopy _⟩, hcontent _⟩
  · simp only [List.forall_mem_append]
    exact ⟨hcopy _, hcontent _⟩
  · exact hcontent _

theorem isOrdinary_boundedItems {all : List Json} {shown : ℕ} (h : ∀ v ∈ all, isOrdinary v = true) :
    isOrdinary (boundedItems all shown) = true := by
  simp only [boundedItems, isOrdinary_obj, List.forall_mem_cons, isOrdinary_nat, isOrdinary_arr]
  exact ⟨trivial, trivial, fun v hv => h v (List.mem_of_mem_take hv), by simp⟩

/-- What is shown of an ordinary turn is ordinary. -/
theorem isOrdinary_buildTurn {turn : Json} (h : isOrdinary turn = true) (c : TurnCut) :
    isOrdinary (buildTurn turn c) = true := by
  have hcopy : ∀ key, ∀ f ∈ copyMember key turn, isOrdinary f.2 = true := fun key => isOrdinary_copy h
  have hsubagents : isOrdinary ((turn.get (js "subagents")).getD .null) = true := by
    rcases hget : turn.get (js "subagents") with _ | w
    · rfl
    · exact isOrdinary_get h hget
  have hactions : ∀ v ∈ ((itemsOf "actions" turn).zip c.actionTextBytes).map
      (fun a => projectReaderAction a.1 a.2), isOrdinary v = true := by
    intro v hv
    obtain ⟨⟨action, n⟩, ha, rfl⟩ := List.mem_map.1 hv
    exact isOrdinary_action (isOrdinary_itemsOf h action (List.of_mem_zip ha).1)
  have hroles := @isOrdinary_itemsOf _ "by_role" hsubagents
  rw [buildTurn, isOrdinary_obj]
  simp only [List.forall_mem_append, List.forall_mem_cons, isOrdinary_obj, isOrdinary_nat, isOrdinary_arr,
    List.mem_mergeSort]
  refine ⟨⟨⟨⟨⟨⟨⟨⟨⟨⟨⟨⟨hcopy _, hcopy _⟩, hcopy _⟩, hcopy _⟩, hcopy _⟩, hcopy _⟩, hcopy _⟩, hcopy _⟩, hcopy _⟩,
    hcopy _⟩, isOrdinary_optionalContent h⟩, isOrdinary_optionalContent h⟩, ?_, ?_, ?_, ?_, by simp⟩
  · exact ⟨trivial, trivial, hactions, by simp⟩
  · exact isOrdinary_boundedItems (isOrdinary_itemsOf h)
  · refine ⟨⟨⟨isOrdinary_copy hsubagents, hroles, by simp⟩, isOrdinary_copy hsubagents⟩, ?_, ?_, by simp⟩
    · exact isOrdinary_boundedItems (isOrdinary_itemsOf hsubagents)
    · exact isOrdinary_boundedItems (isOrdinary_itemsOf hsubagents)
  · trivial

/-! ## Greedy growth -/

section
variable {ε : Type} {test : ℕ → Bool}

theorem maximizeLoop_ok {accepts : ℕ → Except ε Bool} (haccepts : ∀ n, accepts n = .ok (test n))
    (rounds low high : ℕ) (best : Option ℕ) (hbest : ∀ n ∈ best, test n = true) :
    ∃ result, maximizeLoop accepts rounds low high best = .ok result ∧ (∀ n ∈ result, test n = true) ∧
      (best.isSome → result.isSome) := by
  induction rounds generalizing low high best with
  | zero => exact ⟨best, rfl, hbest, id⟩
  | succ rounds ih =>
    rw [maximizeLoop]
    split
    · simp only [haccepts, Outcome.ok_bind]
      split
      · next hmiddle =>
        obtain ⟨result, hresult, htest, hsome⟩ := ih (low + (high - 1 - low) / 2 + 1) high
          (some (low + (high - 1 - low) / 2)) (by simpa using hmiddle)
        exact ⟨result, hresult, htest, fun _ => hsome rfl⟩
      · exact ih _ _ best hbest
    · exact ⟨best, rfl, hbest, id⟩

/-- What the search finds is accepted, and it finds something if 0 is accepted. -/
theorem maximizeReaderBudget_ok {accepts : ℕ → Except ε Bool} (haccepts : ∀ n, accepts n = .ok (test n))
    (maximum : ℕ) : ∃ result, maximizeReaderBudget maximum accepts = .ok result ∧
      (∀ n ∈ result, test n = true) ∧ (test 0 = true → result.isSome) := by
  simp only [maximizeReaderBudget, haccepts, Outcome.ok_bind]
  obtain ⟨result, hresult, htest, hsome⟩ := maximizeLoop_ok haccepts (maximum + 1) 0 (maximum + 1)
    (if test 0 then some 0 else none) (by
      intro n hn
      split at hn
      · next hzero =>
        cases hn
        exact hzero
      · cases hn)
  exact ⟨result, hresult, htest, fun hzero => hsome (by rw [if_pos hzero]; rfl)⟩

theorem appendWhileFits_ok {accepts : ℕ → Except ε Bool} (haccepts : ∀ n, accepts n = .ok (test n))
    (left shown : ℕ) (hshown : test shown = true) :
    ∃ n, appendWhileFits accepts left shown = .ok n ∧ test n = true := by
  induction left generalizing shown with
  | zero => exact ⟨shown, rfl, hshown⟩
  | succ left ih =>
    simp only [appendWhileFits, haccepts, Outcome.ok_bind]
    split
    · next hnext => exact ih _ hnext
    · exact ⟨shown, rfl, hshown⟩

end

section
variable {ε : Type} {fits : TurnCut → Except ε Bool} {test : TurnCut → Bool}

theorem growText_ok (hfits : ∀ c, fits c = .ok (test c)) (maximum : ℕ) {cut : ℕ → TurnCut}
    (hcut : test (cut 0) = true) : ∃ n, growText fits maximum cut = .ok (cut n) ∧ test (cut n) = true := by
  obtain ⟨result, hresult, htest, hsome⟩ := maximizeReaderBudget_ok (fun n => hfits (cut n)) maximum
  obtain ⟨n, rfl⟩ := Option.isSome_iff_exists.1 (hsome hcut)
  refine ⟨n, ?_, htest n rfl⟩
  rw [growText, hresult]
  rfl

theorem growActions_ok (hfits : ∀ c, fits c = .ok (test c)) (maximum : ℕ) (actions : List Json)
    {c : TurnCut} (hc : test c = true) : ∃ texts,
      growActions fits maximum actions c = .ok { c with actionTextBytes := texts } ∧
        test { c with actionTextBytes := texts } = true := by
  induction actions generalizing c with
  | nil => exact ⟨c.actionTextBytes, rfl, hc⟩
  | cons a actions ih =>
    obtain ⟨result, hresult, htest, -⟩ := maximizeReaderBudget_ok
      (fun n => hfits { c with actionTextBytes := c.actionTextBytes ++ [n] }) maximum
    simp only [growActions, hresult, Outcome.ok_bind]
    rcases result with _ | n
    · exact ⟨c.actionTextBytes, rfl, hc⟩
    · exact ih (htest n rfl)

/-- Actions are let in one after the other, as many as there are at most. -/
theorem growActions_extends {maximum : ℕ} {actions : List Json} {c c' : TurnCut}
    (h : growActions fits maximum actions c = .ok c') : ∃ more,
      c' = { c with actionTextBytes := c.actionTextBytes ++ more } ∧ more.length ≤ actions.length := by
  induction actions generalizing c with
  | nil =>
    refine ⟨[], ?_, le_rfl⟩
    rw [List.append_nil]
    exact (Except.ok.inj h).symm
  | cons a actions ih =>
    obtain ⟨best, -, hgrow⟩ := Outcome.bind_ok.1 h
    rcases best with _ | n
    · refine ⟨[], ?_, Nat.zero_le _⟩
      rw [List.append_nil]
      exact (Except.ok.inj hgrow).symm
    · obtain ⟨more, rfl, hlength⟩ := ih hgrow
      refine ⟨n :: more, ?_, Nat.succ_le_succ hlength⟩
      rw [List.append_assoc]
      rfl

theorem growItems_ok (hfits : ∀ c, fits c = .ok (test c)) (total : ℕ) {cut : ℕ → TurnCut}
    (hcut : test (cut 0) = true) : ∃ n, growItems fits total cut = .ok (cut n) ∧ test (cut n) = true := by
  obtain ⟨n, hn, htest⟩ := appendWhileFits_ok (fun n => hfits (cut n)) total 0 hcut
  refine ⟨n, ?_, htest⟩
  rw [growItems, hn]
  rfl

theorem growResponse_ok (hfits : ∀ c, fits c = .ok (test c)) (maximum : ℕ) (turn : Json) {c : TurnCut}
    (hzero : c.responseBytes = 0) (hc : test c = true) : ∃ n,
      growResponse fits maximum turn c = .ok { c with responseBytes := n } ∧
      test { c with responseBytes := n } = true := by
  have hsame : { c with responseBytes := 0 } = c := by
    cases c
    simpa using hzero.symm
  unfold growResponse
  split
  · exact @growText_ok ε fits test hfits maximum (fun n => { c with responseBytes := n }) (hsame.symm ▸ hc)
  · exact ⟨0, by rw [hsame], hsame.symm ▸ hc⟩

/-- **What is let in fits**, if the least projection does. -/
theorem growTurn_ok (hfits : ∀ c, fits c = .ok (test c)) (turn : Json) (options : ReaderProjectionOptions)
    (hleast : test {} = true) : ∃ c, growTurn fits turn options {} = .ok c ∧ test c = true := by
  obtain ⟨request, hrequest, h₁⟩ := @growText_ok ε fits test hfits options.requestExcerptBytes
    (fun n => { requestBytes := n }) hleast
  obtain ⟨response, hresponse, h₂⟩ := growResponse_ok hfits options.responseExcerptBytes turn rfl h₁
  obtain ⟨texts, htexts, h₃⟩ := growActions_ok hfits options.actionExcerptBytes (itemsOf "actions" turn) h₂
  obtain ⟨evidence, hevidence, h₄⟩ := @growItems_ok ε fits test hfits (itemsOf "evidence_refs" turn).length
    (fun n => ⟨request, response, texts, n, 0, 0⟩) h₃
  obtain ⟨changed, hchanged, h₅⟩ := @growItems_ok ε fits test hfits
    (itemsOf "changed_paths" ((turn.get (js "subagents")).getD .null)).length
    (fun n => ⟨request, response, texts, evidence, n, 0⟩) h₄
  obtain ⟨subagent, hsubagent, h₆⟩ := @growItems_ok ε fits test hfits
    (itemsOf "evidence_refs" ((turn.get (js "subagents")).getD .null)).length
    (fun n => ⟨request, response, texts, evidence, changed, n⟩) h₅
  refine ⟨⟨request, response, texts, evidence, changed, subagent⟩, ?_, h₆⟩
  simp only [growTurn, hrequest, Outcome.ok_bind, hresponse, htexts, hevidence, hchanged, hsubagent]

end

/-! ## The projection -/

section
variable {value turn : Json} {byteBudget : ℕ}

/-- The size of the envelope of a value. -/
def projectionSize (byteBudget : ℕ) (value : Json) : ℕ := envelopeSize byteBudget (stableSize value)

/-- **A finite value is refused exactly if its envelope exceeds the budget.** -/
theorem wrapReaderJson_finite (h : hasInfinite value = false) (hbudget : assertReaderByteBudget byteBudget = .ok ()) :
    wrapReaderJson value byteBudget =
      if projectionSize byteBudget value > byteBudget then
        .error (.budgetTooSmall byteBudget (projectionSize byteBudget value))
      else .ok ⟨byteBudget, projectionSize byteBudget value, value⟩ := by
  rw [wrapReaderJson, hbudget, h]
  exact wrapReaderProjection_eq hbudget

theorem readerProjectionFits_finite (h : hasInfinite value = false)
    (hbudget : assertReaderByteBudget byteBudget = .ok ()) :
    readerProjectionFits value byteBudget = .ok (decide (projectionSize byteBudget value ≤ byteBudget)) := by
  rw [readerProjectionFits, wrapReaderJson_finite h hbudget]
  by_cases hsize : projectionSize byteBudget value > byteBudget
  · rw [if_pos hsize]
    simp only [Except.ok.injEq]
    rw [eq_comm, decide_eq_false_iff_not]
    omega
  · rw [if_neg hsize]
    simp only [Except.ok.injEq]
    rw [eq_comm, decide_eq_true_eq]
    omega

/-- **A turn is shown exactly if its least projection fits.** -/
theorem projectTurn_iff (h : isOrdinary turn = true) {options : ReaderProjectionOptions}
    (hlimits : projectionLimits options = .ok ()) :
    (∃ projection, projectTurn turn options = .ok projection) ↔
      projectionSize options.byteBudget (buildTurn turn {}) ≤ options.byteBudget := by
  have hbudget : assertReaderByteBudget options.byteBudget = .ok () := by
    simp only [projectionLimits, Outcome.bind_ok] at hlimits
    obtain ⟨⟨⟩, hbudget, -⟩ := hlimits
    exact hbudget
  have hwrap := fun c => wrapReaderJson_finite (isOrdinary_finite (isOrdinary_buildTurn h c)) hbudget
  rw [projectTurn, hlimits]
  dsimp only
  constructor
  · rintro ⟨projection, hprojection⟩
    obtain ⟨least, hleast, -⟩ := Outcome.bind_ok.1 hprojection
    rw [hwrap] at hleast
    by_contra hsize
    rw [if_pos (by omega)] at hleast
    cases hleast
  · intro hsize
    obtain ⟨c, hgrow, hfit⟩ := growTurn_ok
      (fun c => readerProjectionFits_finite (isOrdinary_finite (isOrdinary_buildTurn h c)) hbudget) turn options
      (decide_eq_true hsize)
    rw [decide_eq_true_eq] at hfit
    simp only [hgrow, Outcome.ok_bind]
    rw [hwrap, if_neg (by omega), Outcome.ok_bind, hwrap, if_neg (by omega)]
    exact ⟨_, rfl⟩

end

end Barbaro
