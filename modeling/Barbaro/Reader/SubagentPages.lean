import Barbaro.Core.Members
import Barbaro.Reader.Projection

/-!
# The pages of a subagent's actions

The evidence of a subagent's turn is shown in pages of actions. A page tells the cursor of the
next one unless it shows the last action, and one that does not start behind the last action
shows at least one.

* `projectSubagentEvidence`: one page.
* `followCursors`: the pages from a cursor on.
* `pages_visit_actions`: they show every action once, in order.
-/

namespace Barbaro

/-! ## One page -/

/-- The content of a record. -/
def evidenceContent (evidence : Json) : Json := (evidence.get (js "content")).getD .null

def evidenceActions (evidence : Json) : List Json := itemsOf "actions" (evidenceContent evidence)

/-- `{ key: value[key] }`, where an absent member stays absent. -/
def copied (key : String) (v : Json) : String × Option Json := (key, v.get (js key))

def evidenceEnvelope (evidence : Json) : List (String × Option Json) :=
  [("schema", some (.str (js "barbaro.reader.evidence.v1"))), copied "evidence_id" evidence,
    copied "kind" evidence, copied "turn_id" evidence, copied "provider" evidence,
    copied "session_id" evidence, copied "workstream_id" evidence, copied "agent_id" evidence,
    copied "parent_turn_id" evidence, copied "parent_link" evidence, copied "occurred_at" evidence,
    ("source_refs", some (natJson (itemsOf "source_refs" evidence).length))]

/-- `a:<offset>` -/
def actionCursor (offset : ℕ) : JsString := js "a:" ++ Json.decDigits offset

def nextActionCursor (total shownTo : ℕ) : Option Json :=
  if shownTo ≥ total then none else some (.str (actionCursor shownTo))

def projectedActions (actions : List Json) (texts : List ℕ) : List Json :=
  (actions.zip texts).map fun a => projectReaderAction a.1 a.2

def subagentActions (actions : List Json) (offset : ℕ) (texts : List ℕ) : Json :=
  objectOf [("shown", some (natJson texts.length)), ("total", some (natJson actions.length)),
    ("items", some (.arr (projectedActions (actions.drop offset) texts))),
    ("next_cursor", nextActionCursor actions.length (offset + texts.length))]

def subagentContent (content : Json) (offset : ℕ) (c : TurnCut) : Json :=
  objectOf [copied "role" content, copied "sequence" content, copied "outcome" content,
    copied "started_at" content, copied "ended_at" content,
    ("request", (content.get (js "request")).map (projectReaderContent · c.requestBytes)),
    ("response", (content.get (js "response")).map (projectReaderContent · c.responseBytes)),
    ("actions", some (subagentActions (itemsOf "actions" content) offset c.actionTextBytes))]

/-- `build` -/
def buildSubagentEvidence (evidence : Json) (offset : ℕ) (c : TurnCut) : Json :=
  objectOf (evidenceEnvelope evidence ++ [("content", some (subagentContent (evidenceContent evidence) offset c))])

/-- `/^a:(0|[1-9][0-9]*)$/` -/
def scanActionCursor : JsString → Option ℕ
  | 97 :: 58 :: digits =>
    match Json.scanInt digits with
    | some (digits, []) => some (Json.ofDigits digits)
    | _ => none
  | _ => none

def parseActionCursor (cursor : Option JsString) (total : ℕ) : Except Failure ℕ :=
  match cursor with
  | none => .ok 0
  | some cursor =>
    match scanActionCursor cursor with
    | none => .error (.typeError "actionCursor must have the form a:<non-negative integer>")
    | some offset =>
      if offset > maxSafeInteger ∨ offset > total then
        .error (.rangeError "actionCursor is beyond the evidence action list")
      else .ok offset

section
variable (evidence : Json) (options : ReaderProjectionOptions)

def evidenceFits (offset : ℕ) (c : TurnCut) : Except ProjectionFailure Bool :=
  readerProjectionFits (buildSubagentEvidence evidence offset c) options.byteBudget

/-- The first action of a page, with as much of its text as fits; nothing if it does not fit. -/
def firstAction (offset : ℕ) : Except ProjectionFailure (Option TurnCut) :=
  if offset < (evidenceActions evidence).length then do
    let best ← maximizeReaderBudget options.actionExcerptBytes
      (fun n => evidenceFits evidence options offset { actionTextBytes := [n] })
    return best.map (fun n => { actionTextBytes := [n] })
  else .ok (some {})

/-- The texts of the request and the response, and then the other actions. -/
def growPage (offset : ℕ) (c : TurnCut) : Except ProjectionFailure TurnCut := do
  let fits := evidenceFits evidence options offset
  let c ← growText fits options.requestExcerptBytes (fun n => { c with requestBytes := n })
  let c ← growResponse fits options.responseExcerptBytes (evidenceContent evidence) c
  growActions fits options.actionExcerptBytes
    ((evidenceActions evidence).drop (offset + c.actionTextBytes.length)) c

def projectPage (offset : ℕ) : Except ProjectionFailure (ReaderProjection Json) := do
  let _ ← wrapReaderJson (buildSubagentEvidence evidence offset {}) options.byteBudget
  match ← firstAction evidence options offset with
  -- A page with a continuation cursor must always make forward progress.
  | none => wrapReaderJson (buildSubagentEvidence evidence offset { actionTextBytes := [0] }) options.byteBudget
  | some c => do
    let c ← growPage evidence options offset c
    wrapReaderJson (buildSubagentEvidence evidence offset c) options.byteBudget

def projectSubagentEvidence (cursor : Option JsString) :
    Except ProjectionFailure (ReaderProjection Json) :=
  match projectionLimits options with
  | .error failure => .error (.other failure)
  | .ok () =>
    match parseActionCursor cursor (evidenceActions evidence).length with
    | .error failure => .error (.other failure)
    | .ok offset => projectPage evidence options offset

/-! ## Following the cursors -/

/-- The actions a page shows. -/
def shownActions (page : Json) : List Json :=
  itemsOf "items" (((page.get (js "content")).bind (·.get (js "actions"))).getD .null)

/-- The cursor a page tells. -/
def pageCursor (page : Json) : Option JsString :=
  textAt? "next_cursor" (((page.get (js "content")).bind (·.get (js "actions"))).getD .null)

/-- The pages from a cursor on, if there are no more than so many. -/
def followCursors : ℕ → Option JsString → Except ProjectionFailure (Option (List (ReaderProjection Json)))
  | 0, _ => .ok none
  | pages + 1, cursor => do
    let page ← projectSubagentEvidence evidence options cursor
    match pageCursor page.value with
    | none => return some [page]
    | some next => do
      let rest ← followCursors pages (some next)
      return rest.map (page :: ·)

end

/-! ## Cursors -/

theorem parseActionCursor_next {offset total : ℕ} (h : offset ≤ total) (hsafe : total ≤ maxSafeInteger) :
    parseActionCursor (some (actionCursor offset)) total = .ok offset := by
  have hdigits : Json.scanInt (Json.decDigits offset) = some (Json.decDigits offset, []) := by
    have hscan := Json.scanInt_decDigits offset (r := []) (by intro u s h; cases h)
    rwa [List.append_nil] at hscan
  have hscan : scanActionCursor (actionCursor offset) = some offset := by
    have hvalue : Json.ofDigits (Json.decDigits offset) = offset := Json.ofDigits_decLoop (Nat.lt_succ_self _)
    show (match Json.scanInt (Json.decDigits offset) with
      | some (digits, []) => some (Json.ofDigits digits)
      | _ => none) = some offset
    rw [hdigits]
    exact congrArg some hvalue
  rw [parseActionCursor, hscan]
  exact if_neg (by omega)

/-! ## Numbers out of range -/

theorem finite_arr {vs : List Json} : hasInfinite (.arr vs) = false ↔ ∀ v ∈ vs, hasInfinite v = false := by
  rw [hasInfinite]
  induction vs with
  | nil => simp [hasInfiniteItems]
  | cons v vs ih => rw [hasInfiniteItems, Bool.or_eq_false_iff, ih, List.forall_mem_cons]

theorem finite_obj {fs : List (JsString × Json)} :
    hasInfinite (.obj fs) = false ↔ ∀ f ∈ fs, hasInfinite f.2 = false := by
  rw [hasInfinite]
  induction fs with
  | nil => simp [hasInfiniteFields]
  | cons f fs ih => rw [hasInfiniteFields, Bool.or_eq_false_iff, ih, List.forall_mem_cons]

theorem finite_objectOf {members : List (String × Option Json)} :
    hasInfinite (objectOf members) = false ↔ ∀ m ∈ members, ∀ v, m.2 = some v → hasInfinite v = false := by
  rw [objectOf, finite_obj]
  constructor
  · intro h m hm v hv
    exact h (js m.1, v) (List.mem_filterMap.2 ⟨m, hm, by rw [hv]; rfl⟩)
  · intro h f hf
    obtain ⟨m, hm, hmf⟩ := List.mem_filterMap.1 hf
    obtain ⟨v, hv, rfl⟩ := Option.map_eq_some_iff.1 hmf
    exact h m hm v hv

/-- The numbers a content is shown with do not depend on how much of its text is. -/
theorem finite_content {content : Json} {m n : ℕ} (h : hasInfinite (projectReaderContent content m) = false) :
    hasInfinite (projectReaderContent content n) = false := by
  have hbool : ∀ b, hasInfinite (.bool b) = false := fun _ => rfl
  have hstr : ∀ s, hasInfinite (.str s) = false := fun _ => rfl
  have hnat : ∀ n, hasInfinite (natJson n) = false := fun _ => rfl
  simp only [projectReaderContent, finite_obj, List.forall_mem_append, List.forall_mem_cons, hbool, hstr, hnat] at h ⊢
  exact h

theorem finite_optionalContent {key : String} {v : Json} {m n : ℕ}
    (h : ∀ f ∈ projectOptionalContent key v m, hasInfinite f.2 = false) :
    ∀ f ∈ projectOptionalContent key v n, hasInfinite f.2 = false := by
  unfold projectOptionalContent optionalMember at h ⊢
  rcases hget : v.get (js key) with _ | content
  · simp
  · rw [hget] at h
    simp only [Option.map_some, List.mem_singleton, forall_eq] at h ⊢
    exact finite_content h

theorem finite_action {action : Json} {m n : ℕ} (h : hasInfinite (projectReaderAction action m) = false) :
    hasInfinite (projectReaderAction action n) = false := by
  simp only [projectReaderAction, finite_obj, List.forall_mem_append] at h ⊢
  refine ⟨h.1, ?_⟩
  have hkind := h.2
  split_ifs at hkind ⊢
  · exact hkind
  · simp only [List.forall_mem_append] at hkind ⊢
    exact ⟨⟨finite_optionalContent hkind.1.1, hkind.1.2⟩, finite_optionalContent hkind.2⟩
  · simp only [List.forall_mem_append] at hkind ⊢
    exact ⟨⟨⟨⟨finite_optionalContent hkind.1.1.1.1, hkind.1.1.1.2⟩, hkind.1.1.2⟩, hkind.1.2⟩,
      finite_optionalContent hkind.2⟩
  · simp only [List.forall_mem_append] at hkind ⊢
    exact ⟨hkind.1, finite_optionalContent hkind.2⟩
  · exact finite_optionalContent hkind

/-! ## Budgets that fit -/

section
variable {evidence : Json} {options : ReaderProjectionOptions}

variable (evidence options) in
/-- The least page from an offset fits: the one without an action, and the one with the first
action and none of its text. -/
structure FitsLeast (offset : ℕ) : Prop where
  bare : evidenceFits evidence options offset {} = .ok true
  first : offset < (evidenceActions evidence).length →
    evidenceFits evidence options offset { actionTextBytes := [0] } = .ok true

theorem finite_of_fits {value : Json} {byteBudget : ℕ} (h : readerProjectionFits value byteBudget = .ok true) :
    hasInfinite value = false := by
  unfold readerProjectionFits wrapReaderJson at h
  by_contra hinfinite
  rw [Bool.not_eq_false] at hinfinite
  rw [if_pos hinfinite] at h
  cases hbudget : assertReaderByteBudget byteBudget with
  | error f => simp [hbudget] at h
  | ok u => simp [hbudget] at h

theorem finite_page {offset : ℕ} {c : TurnCut} :
    hasInfinite (buildSubagentEvidence evidence offset c) = false ↔
      (∀ m ∈ evidenceEnvelope evidence, ∀ v, m.2 = some v → hasInfinite v = false) ∧
        hasInfinite (subagentContent (evidenceContent evidence) offset c) = false := by
  rw [buildSubagentEvidence, finite_objectOf, List.forall_mem_append, List.forall_mem_singleton]
  simp only [Option.some.injEq, forall_eq']

theorem finite_actions {actions : List Json} {offset : ℕ} {texts : List ℕ} :
    hasInfinite (subagentActions actions offset texts) = false ↔
      ∀ v ∈ projectedActions (actions.drop offset) texts, hasInfinite v = false := by
  have hcursor : ∀ v, nextActionCursor actions.length (offset + texts.length) = some v → hasInfinite v = false := by
    intro v hv
    unfold nextActionCursor at hv
    split_ifs at hv
    rw [← Option.some.inj hv]
    rfl
  have hnat : ∀ n, hasInfinite (natJson n) = false := fun _ => rfl
  rw [subagentActions, finite_objectOf]
  simp only [List.forall_mem_cons, Option.some.injEq, forall_eq', hnat, finite_arr, true_and]
  exact ⟨fun h => h.1, fun h => ⟨h, hcursor, by simp⟩⟩

/-- **No page meets a number out of range**, if the least pages fit. -/
theorem page_finite (hfits : ∀ i ≤ (evidenceActions evidence).length, FitsLeast evidence options i)
    (offset : ℕ) (c : TurnCut) : hasInfinite (buildSubagentEvidence evidence offset c) = false := by
  have hbare := finite_page.1 (finite_of_fits (hfits 0 (Nat.zero_le _)).bare)
  have hcontent := finite_objectOf.1 hbare.2
  refine finite_page.2 ⟨hbare.1, finite_objectOf.2 ?_⟩
  simp only [List.forall_mem_cons, Option.map_eq_some_iff, forall_exists_index, and_imp,
    Option.some.injEq, forall_eq'] at hcontent ⊢
  obtain ⟨hrole, hsequence, houtcome, hstarted, hended, hrequest, hresponse, -, -⟩ := hcontent
  refine ⟨hrole, hsequence, houtcome, hstarted, hended, ?_, ?_, ?_, by simp⟩
  · rintro v w hw rfl
    exact finite_content (hrequest _ w hw rfl)
  · rintro v w hw rfl
    exact finite_content (hresponse _ w hw rfl)
  · refine finite_actions.2 fun v hv => ?_
    obtain ⟨⟨action, n⟩, hzip, rfl⟩ := List.mem_map.1 hv
    have hmem : action ∈ evidenceActions evidence := List.mem_of_mem_drop (List.of_mem_zip hzip).1
    obtain ⟨i, hi, hget⟩ := List.mem_iff_getElem.1 hmem
    -- the least page that starts at this action shows it
    have hfirst := finite_page.1 (finite_of_fits ((hfits i hi.le).first hi))
    have hactions := finite_objectOf.1 hfirst.2 ("actions", some (subagentActions (evidenceActions evidence) i [0]))
      (by simp [evidenceActions]) _ rfl
    have hdrop : (evidenceActions evidence).drop i = action :: (evidenceActions evidence).drop (i + 1) := by
      rw [List.drop_eq_getElem_cons hi, hget]
    refine finite_action (finite_actions.1 hactions (projectReaderAction action 0) ?_)
    have hshown : projectedActions ((evidenceActions evidence).drop i) [0] = [projectReaderAction action 0] := by
      simp [hdrop, projectedActions]
    exact hshown ▸ List.mem_singleton_self _

/-! ## What a page shows -/

theorem page_actions (offset : ℕ) (c : TurnCut) :
    ((buildSubagentEvidence evidence offset c).get (js "content")).bind (·.get (js "actions")) =
      some (subagentActions (evidenceActions evidence) offset c.actionTextBytes) := by
  have hcontent : (buildSubagentEvidence evidence offset c).get (js "content") =
      some (subagentContent (evidenceContent evidence) offset c) :=
    get_objectOf_of_nodup (by simp) (by simp [evidenceEnvelope, copied])
  have hactions : (subagentContent (evidenceContent evidence) offset c).get (js "actions") =
      some (subagentActions (evidenceActions evidence) offset c.actionTextBytes) :=
    get_objectOf_of_nodup (by simp [evidenceActions]) (by simp [copied])
  rw [hcontent, Option.bind_some, hactions]

theorem shownActions_page (offset : ℕ) (c : TurnCut) : shownActions (buildSubagentEvidence evidence offset c) =
    projectedActions ((evidenceActions evidence).drop offset) c.actionTextBytes := by
  have hitems : (subagentActions (evidenceActions evidence) offset c.actionTextBytes).get (js "items") =
      some (.arr (projectedActions ((evidenceActions evidence).drop offset) c.actionTextBytes)) :=
    get_objectOf_of_nodup (by simp) (by simp)
  rw [shownActions, page_actions, Option.getD_some, itemsOf, itemsAt?, hitems]
  rfl

theorem pageCursor_page (offset : ℕ) (c : TurnCut) : pageCursor (buildSubagentEvidence evidence offset c) =
    if offset + c.actionTextBytes.length ≥ (evidenceActions evidence).length then none
    else some (actionCursor (offset + c.actionTextBytes.length)) := by
  have hcursor : (subagentActions (evidenceActions evidence) offset c.actionTextBytes).get (js "next_cursor") =
      nextActionCursor (evidenceActions evidence).length (offset + c.actionTextBytes.length) :=
    get_objectOf_of_nodup (by simp) (by simp)
  rw [pageCursor, page_actions, Option.getD_some, textAt?, hcursor, nextActionCursor]
  split_ifs
  · rfl
  · rfl

section
variable {offset : ℕ} {test : TurnCut → Bool}

theorem firstAction_ok (htest : ∀ c, evidenceFits evidence options offset c = .ok (test c)) (hbare : test {} = true)
    (hfirst : offset < (evidenceActions evidence).length → test { actionTextBytes := [0] } = true) :
    ∃ texts, firstAction evidence options offset = .ok (some { actionTextBytes := texts }) ∧
      test { actionTextBytes := texts } = true ∧
      texts.length = if offset < (evidenceActions evidence).length then 1 else 0 := by
  unfold firstAction
  split
  · rename_i hlt
    obtain ⟨best, hbest, haccepted, hsome⟩ := maximizeReaderBudget_ok
      (fun n => htest { actionTextBytes := [n] }) options.actionExcerptBytes
    obtain ⟨n, rfl⟩ := Option.isSome_iff_exists.1 (hsome (hfirst hlt))
    refine ⟨[n], ?_, haccepted n rfl, rfl⟩
    rw [hbest]
    rfl
  · exact ⟨[], rfl, hbare, rfl⟩

/-- What else a page shows fits too. -/
theorem growPage_ok (htest : ∀ c, evidenceFits evidence options offset c = .ok (test c)) {texts : List ℕ}
    (h : test { actionTextBytes := texts } = true) :
    ∃ c more, growPage evidence options offset { actionTextBytes := texts } = .ok c ∧ test c = true ∧
      c.actionTextBytes = texts ++ more ∧ more.length ≤ (evidenceActions evidence).length - (offset + texts.length) := by
  obtain ⟨request, hrequest, h₁⟩ := @growText_ok _ _ _ htest options.requestExcerptBytes
    (fun n => { requestBytes := n, actionTextBytes := texts }) h
  obtain ⟨response, hresponse, h₂⟩ := growResponse_ok htest options.responseExcerptBytes
    (evidenceContent evidence) rfl h₁
  obtain ⟨texts', hactions, h₃⟩ := growActions_ok htest options.actionExcerptBytes
    ((evidenceActions evidence).drop (offset + texts.length)) h₂
  obtain ⟨more, hmore, hlength⟩ := growActions_extends hactions
  rw [List.length_drop] at hlength
  refine ⟨_, more, ?_, h₃, congrArg TurnCut.actionTextBytes hmore, hlength⟩
  simp only [growPage, hrequest, hresponse, hactions, Outcome.ok_bind]

end

/-- **A page that fits is shown**, and shows an action unless there is none left. -/
theorem projectPage_ok (hlimits : projectionLimits options = .ok ())
    (hfits : ∀ i ≤ (evidenceActions evidence).length, FitsLeast evidence options i)
    {offset : ℕ} (hoffset : offset ≤ (evidenceActions evidence).length) :
    ∃ page c, projectPage evidence options offset = .ok page ∧
      page.value = buildSubagentEvidence evidence offset c ∧
      offset + c.actionTextBytes.length ≤ (evidenceActions evidence).length ∧
      (offset < (evidenceActions evidence).length → 0 < c.actionTextBytes.length) := by
  have hbudget : assertReaderByteBudget options.byteBudget = .ok () := by
    simp only [projectionLimits, Outcome.bind_ok] at hlimits
    obtain ⟨⟨⟩, hbudget, -⟩ := hlimits
    exact hbudget
  have hfinite := page_finite hfits offset
  have htest : ∀ c, evidenceFits evidence options offset c = .ok (decide (projectionSize options.byteBudget
      (buildSubagentEvidence evidence offset c) ≤ options.byteBudget)) :=
    fun c => readerProjectionFits_finite (hfinite c) hbudget
  have hwrap := fun c => wrapReaderJson_finite (hfinite c) hbudget
  have hleast := hfits offset hoffset
  have hbare := Except.ok.inj ((htest {}).symm.trans hleast.bare)
  obtain ⟨first, hfirst, hfirstFits, hone⟩ := firstAction_ok htest hbare
    (fun hlt => Except.ok.inj ((htest _).symm.trans (hleast.first hlt)))
  obtain ⟨c, more, hgrow, hfit, htexts, hmore⟩ := growPage_ok htest hfirstFits
  rw [decide_eq_true_eq] at hbare hfit
  refine ⟨⟨options.byteBudget, projectionSize options.byteBudget (buildSubagentEvidence evidence offset c),
    buildSubagentEvidence evidence offset c⟩, c, ?_, rfl, ?_, ?_⟩
  · unfold projectPage
    rw [hwrap, if_neg (by omega), Outcome.ok_bind, hfirst, Outcome.ok_bind]
    dsimp only
    rw [hgrow, Outcome.ok_bind, hwrap, if_neg (by omega)]
  · rw [htexts, List.length_append]
    split at hone <;> omega
  · intro hlt
    rw [htexts, List.length_append, hone, if_pos hlt]
    omega

/-! ## The walk -/

/-- No array is longer. -/
def maxArrayLength : ℕ := 2 ^ 32 - 1

/-- An action, with some of its text. -/
def ShowsAction (shown action : Json) : Prop := ∃ n, shown = projectReaderAction action n

theorem projectedActions_shows {actions : List Json} {texts : List ℕ} (h : texts.length ≤ actions.length) :
    List.Forall₂ ShowsAction (projectedActions actions texts) (actions.take texts.length) := by
  induction texts generalizing actions with
  | nil => simp [projectedActions]
  | cons n texts ih =>
    cases actions with
    | nil => simp at h
    | cons action actions =>
      rw [List.length_cons, List.take_succ_cons]
      exact .cons ⟨n, rfl⟩ (ih (Nat.le_of_succ_le_succ h))

/-- From a cursor on, the pages show the actions from there on. -/
theorem followCursors_from (hlength : (evidenceActions evidence).length ≤ maxArrayLength)
    (hlimits : projectionLimits options = .ok ())
    (hfits : ∀ i ≤ (evidenceActions evidence).length, FitsLeast evidence options i) (left : ℕ) {offset : ℕ}
    (hoffset : offset ≤ (evidenceActions evidence).length) (hleft : (evidenceActions evidence).length - offset ≤ left)
    {cursor : Option JsString} (hcursor : parseActionCursor cursor (evidenceActions evidence).length = .ok offset) :
    ∃ pages, (∀ fuel > left, followCursors evidence options fuel cursor = .ok (some pages)) ∧
      List.Forall₂ ShowsAction (pages.flatMap (fun page => shownActions page.value))
        ((evidenceActions evidence).drop offset) ∧
      ∀ page ∈ pages, pageCursor page.value = none ∨ 0 < (shownActions page.value).length := by
  induction left generalizing offset cursor with
  | zero =>
    obtain ⟨page, c, hpage, hvalue, hend, -⟩ := projectPage_ok hlimits hfits hoffset
    have hnone : pageCursor page.value = none := by
      rw [hvalue, pageCursor_page, if_pos (by omega)]
    refine ⟨[page], fun fuel hfuel => ?_, ?_, by simp [hnone]⟩
    · obtain ⟨fuel, rfl⟩ := Nat.exists_eq_succ_of_ne_zero (by omega : fuel ≠ 0)
      simp only [followCursors, projectSubagentEvidence, hlimits, hcursor, hpage, Outcome.ok_bind, hnone]
      rfl
    · have hdrop : (evidenceActions evidence).drop offset = [] := List.drop_eq_nil_of_le (by omega)
      simp [hvalue, shownActions_page, hdrop, projectedActions]
  | succ left ih =>
    obtain ⟨page, c, hpage, hvalue, hend, hprogress⟩ := projectPage_ok hlimits hfits hoffset
    have hshown := @projectedActions_shows ((evidenceActions evidence).drop offset) c.actionTextBytes
      (by rw [List.length_drop]; omega)
    have hpart : shownActions page.value = projectedActions ((evidenceActions evidence).drop offset) c.actionTextBytes := by
      rw [hvalue, shownActions_page]
    by_cases hlast : offset + c.actionTextBytes.length ≥ (evidenceActions evidence).length
    · have hnone : pageCursor page.value = none := by rw [hvalue, pageCursor_page, if_pos hlast]
      refine ⟨[page], fun fuel hfuel => ?_, ?_, by simp [hnone]⟩
      · obtain ⟨fuel, rfl⟩ := Nat.exists_eq_succ_of_ne_zero (by omega : fuel ≠ 0)
        simp only [followCursors, projectSubagentEvidence, hlimits, hcursor, hpage, Outcome.ok_bind, hnone]
        rfl
      · rw [List.take_of_length_le (by rw [List.length_drop]; omega)] at hshown
        simpa [hpart] using hshown
    · have hnext : pageCursor page.value = some (actionCursor (offset + c.actionTextBytes.length)) := by
        rw [hvalue, pageCursor_page, if_neg hlast]
      have hsafe : (evidenceActions evidence).length ≤ maxSafeInteger := by
        unfold maxArrayLength at hlength
        unfold maxSafeInteger
        omega
      have hpositive := hprogress (by omega)
      obtain ⟨pages, hpages, hrest, hall⟩ := ih hend (by omega) (parseActionCursor_next hend hsafe)
      refine ⟨page :: pages, fun fuel hfuel => ?_, ?_, ?_⟩
      · obtain ⟨fuel, rfl⟩ := Nat.exists_eq_succ_of_ne_zero (by omega : fuel ≠ 0)
        simp only [followCursors, projectSubagentEvidence, hlimits, hcursor, hpage, Outcome.ok_bind, hnext,
          hpages fuel (by omega)]
        rfl
      · rw [List.flatMap_cons, hpart]
        have hboth := List.rel_append hshown hrest
        dsimp only at hboth
        rwa [← List.drop_drop, List.take_append_drop] at hboth
      · rintro p hp
        rcases List.mem_cons.1 hp with rfl | hp
        · right
          rw [hpart, projectedActions, List.length_map, List.length_zip, List.length_drop]
          omega
        · exact hall p hp

/-- **Following the cursors shows every action once, in order**: the walk ends after as many pages
as there are actions and one at most, and each page but the last shows an action. -/
theorem pages_visit_actions (evidence : Json) (options : ReaderProjectionOptions)
    (hlength : (evidenceActions evidence).length ≤ maxArrayLength) (hlimits : projectionLimits options = .ok ())
    (hfits : ∀ i ≤ (evidenceActions evidence).length, FitsLeast evidence options i) :
    ∃ pages, (∀ fuel > (evidenceActions evidence).length,
        followCursors evidence options fuel none = .ok (some pages)) ∧
      List.Forall₂ ShowsAction (pages.flatMap (fun page => shownActions page.value)) (evidenceActions evidence) ∧
      ∀ page ∈ pages, pageCursor page.value = none ∨ 0 < (shownActions page.value).length := by
  have hwalk := followCursors_from hlength hlimits hfits (evidenceActions evidence).length (Nat.zero_le _)
    (Nat.sub_le _ _) (show parseActionCursor none _ = .ok 0 from rfl)
  rwa [List.drop_zero] at hwalk

end

/-! ## Two actions -/

def otherAction : Json :=
  .obj [(js "action_id", .str (js "act_1")), (js "kind", .str (js "other")), (js "outcome", .str (js "success")),
    (js "source_refs", .arr []), (js "summary", .obj [(js "text", .str (js "read a file"))])]

def twoActions : Json :=
  .obj [(js "kind", .str (js "subagent_turn")), (js "content", .obj [(js "actions", .arr [otherAction, otherAction])])]

def pageOptions : ReaderProjectionOptions := { byteBudget := 800 }

theorem twoActions_fits : ∀ i ≤ (evidenceActions twoActions).length, FitsLeast twoActions pageOptions i := by
  intro i hi
  have hi : i ≤ 2 := hi
  have hall : (List.range 3).all (fun i => (evidenceFits twoActions pageOptions i {}).toOption == some true) = true ∧
      (List.range 3).all (fun i =>
        (evidenceFits twoActions pageOptions i { actionTextBytes := [0] }).toOption == some true) = true := by
    decide +kernel
  have hmem : i ∈ List.range 3 := List.mem_range.2 (by omega)
  exact ⟨Outcome.toOption_some.1 (eq_of_beq (List.all_eq_true.1 hall.1 i hmem)),
    fun _ => Outcome.toOption_some.1 (eq_of_beq (List.all_eq_true.1 hall.2 i hmem))⟩

/-- The walk over two actions. -/
theorem pages_visit_two : ∃ pages, (∀ fuel > (evidenceActions twoActions).length,
      followCursors twoActions pageOptions fuel none = .ok (some pages)) ∧
    List.Forall₂ ShowsAction (pages.flatMap (fun page => shownActions page.value)) (evidenceActions twoActions) ∧
    ∀ page ∈ pages, pageCursor page.value = none ∨ 0 < (shownActions page.value).length :=
  pages_visit_actions twoActions pageOptions (by decide) (by decide) twoActions_fits

end Barbaro
