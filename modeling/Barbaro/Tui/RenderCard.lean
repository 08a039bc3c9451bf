import Barbaro.Tui.CardLayout
import Barbaro.Tui.HorseFrames
import Mathlib.Data.Rat.Floor

/-!
# The comfort renderer

One view model in, one card out. Every kind of frame builds the rows of its interior; `renderCard` paints
the walls around them, and the strip, the bench and the key line outside.

* `renderComfortCard`, `renderSubCard`: the two framed tiers.
* `hubRows`, `workingRows`, `idleRows`, ...: the interior of each kind of frame.
* `viewport_selected`: the viewports show what is selected.
-/

namespace Barbaro.Tui

/-! ## Views -/

structure HubEntryView where
  selected : Bool
  position : ℕ
  name : JsString
  detail : JsString

structure HubFrameView where
  title : JsString
  entries : List HubEntryView
  bottomTitle : JsString
  quietLine : Option JsString
  unknownNames : Option (List JsString)
  unknownHeader : Option JsString

inductive HorseView
  | gallop (frameIndex : ℤ)
  | intertitle (text : JsString)

structure RollLineView where
  selected : Bool
  identity : JsString
  detail : JsString

structure WorkingFrameView where
  title : JsString
  horse : HorseView
  telemetry : Option JsString
  rolls : List RollLineView

structure ExposureRowView where
  selected : Bool
  /-- The text of the number. -/
  sequence : JsString
  exception : Option JsString
  time : JsString
  excerpt : JsString
  excerptTruncated : Bool

structure IdleFrameView where
  title : JsString
  exposures : List ExposureRowView
  summaryLine : JsString
  rolls : List RollLineView

structure HelpRowView where
  term : JsString
  meaning : JsString

structure HelpFrameView where
  title : JsString
  keyRows : List HelpRowView
  wordRows : List HelpRowView

structure IntertitleFrameView where
  title : JsString
  lines : List JsString

structure TraversalFrameView where
  title : JsString
  frameIndex : ℤ
  /-- Normalized travel: 0 off-left, 0.5 centered, 1 off-right. -/
  progress : ℚ

structure CreateFieldView where
  label : JsString
  value : JsString
  focused : Bool

structure CreateFormFrameView where
  title : JsString
  fields : List CreateFieldView
  hints : List JsString
  status : JsString
  showCursor : Bool

structure CreatedCommandView where
  heading : JsString
  text : JsString
  selected : Bool
  manualHighlight : Bool

structure CreatedFrameView where
  title : JsString
  name : JsString
  subtitle : Option JsString
  idLine : JsString
  commands : List CreatedCommandView

inductive FrameView
  | hub (frame : HubFrameView)
  | working (frame : WorkingFrameView)
  | idle (frame : IdleFrameView)
  | help (frame : HelpFrameView)
  | intertitle (frame : IntertitleFrameView)
  | traversal (frame : TraversalFrameView)
  | form (frame : CreateFormFrameView)
  | created (frame : CreatedFrameView)

def FrameView.title : FrameView → JsString
  | .hub frame => frame.title
  | .working frame => frame.title
  | .idle frame => frame.title
  | .help frame => frame.title
  | .intertitle frame => frame.title
  | .traversal frame => frame.title
  | .form frame => frame.title
  | .created frame => frame.title

structure CardView where
  location : JsString
  truth : JsString
  frame : FrameView
  bench : List JsString
  keyLine : JsString

/-! ## Lines -/

def ledgerIndent : ℕ := 2
def compactHorseRows : ℕ := 8
def compactHorseCells : ℕ := 36
def helpMeaningStop : ℕ := 19
def formFieldOpen : ℕ := 2
def formFieldClose : ℕ := 55

/-- The stop of the details: `DETAIL_STOP_64` or `DETAIL_STOP_56`. -/
def detailStop (card : CardGeometry) : ℕ := if card.tier = .comfort then 36 else 24

/-- The capacity of the idle rolls: `IDLE_ROLL_CAPACITY_64` or `IDLE_ROLL_CAPACITY_56`. -/
def idleRollCapacity (card : CardGeometry) : ℕ := if card.tier = .comfort then 5 else 2

/-- `head + " ".repeat(Math.max(1, stop - measureCells(head))) + tail`, where at least one blank is repeated. -/
def atStop (head : JsString) (stop : ℕ) (tail : JsString) : JsString :=
  head ++ blanks (max 1 (stop - measureCells head)) ++ tail

/-- `> name` at card column 2/4, detail at the tier's fixed stop. -/
def stopLine (selected : Bool) (identity detail : JsString) (stop : ℕ) : JsString :=
  let marker : UInt16 := if selected then 62 else 32
  let name := clipCells (sanitizeCells identity) (stop - ledgerIndent - 1)
  atStop (marker :: 32 :: name) stop (sanitizeCells detail)

def termLine (row : HelpRowView) : JsString :=
  let term := clipCells (sanitizeCells row.term) (helpMeaningStop - ledgerIndent - 1)
  atStop (blanks ledgerIndent ++ term) (helpMeaningStop + ledgerIndent) (sanitizeCells row.meaning)

/-- A line of the ledger. -/
def indented (text : JsString) : JsString := blanks ledgerIndent ++ text

def topStripRow (left right : JsString) (width : ℤ) : Except Failure JsString := do
  let leftCells := clipCells (sanitizeCells left) width
  let rightCells := clipCells (sanitizeCells right) (width - measureCells leftCells - 1)
  let fill ← repeatUnit 32 (width - measureCells leftCells - measureCells rightCells)
  return leftCells ++ (fill ++ rightCells)

/-! ## The key line -/

/-- `clean.split(/\s+·\s+/u)`: the segment so far, the gap after it, and whether the gap ends with the dot. -/
def splitSegments (segment gap : JsString) (dotted skipping : Bool) : JsString → List JsString
  | [] => [segment ++ gap]
  | u :: us =>
    if isTrimUnit u then
      if skipping then splitSegments segment gap dotted true us
      else if dotted then segment :: splitSegments [] [] false true us
      else splitSegments segment (gap ++ [u]) false false us
    else if u = 0xB7 ∧ gap ≠ [] ∧ dotted = false then splitSegments segment (gap ++ [u]) true false us
    else splitSegments (segment ++ gap ++ [u]) [] false false us

def keyLineDropPriority (segment : JsString) : Option ℕ :=
  if segment = js "r" ∨ segment = js "r refresh" then some 0
  else if segment = js "n new" then some 1
  else if segment = js "Space" ∨ (js "Space ").isPrefixOf segment then some 2
  else if segment = js "?" ∨ segment = js "? help" then some 3
  else none

/-- The first segment of the least priority; the last one if none has any. -/
def dropIndex (fitted : List JsString) : ℕ :=
  ([0, 1, 2, 3].findSome? fun priority =>
    fitted.findIdx? fun segment => keyLineDropPriority segment = some priority).getD (fitted.length - 1)

/-- The segments with what follows them, joined by middle dots. -/
def joinSegments (fitted : List JsString) (quit : Option JsString) : JsString :=
  (js " · ").intercalate (fitted ++ quit.toList)

/-- Shed segments until the rest fits; a round for each of them. -/
def fitSegments (quit : Option JsString) (width : ℤ) : ℕ → List JsString → List JsString
  | 0, fitted => fitted
  | rounds + 1, fitted =>
    if fitted ≠ [] ∧ measureCells (joinSegments fitted quit) > width then
      fitSegments quit width rounds (fitted.eraseIdx (dropIndex fitted))
    else fitted

/-- Preserve whole key promises; shed secondary controls before primary ones. -/
def fitKeyLine (keyLine : JsString) (width : ℤ) : JsString :=
  let clean := trim (sanitizeCells keyLine)
  if measureCells clean ≤ width then clean
  else
    let segments := (splitSegments [] [] false false clean).filter (· ≠ [])
    let quit := if segments.getLast? = some (js "q quit") then some (js "q quit") else none
    let segments := if quit.isSome then segments.dropLast else segments
    let result := joinSegments (fitSegments quit width segments.length segments) quit
    if result.length = 0 then clipWords clean width else result

/-! ## Viewports -/

section
variable {α : Type} (selected : α → Bool)

/-- `Math.max(0, items.findIndex(selected))` -/
def selectedIndex (items : List α) : ℕ := (items.findIdx? selected).getD 0

/-- Where a viewport of so many items begins, so that it shows the selected one. -/
def viewportStart (items : List α) (count : ℕ) : ℕ :=
  min (selectedIndex selected items + 1 - count) (items.length - count)

def viewport (items : List α) (count : ℕ) : List α :=
  (items.drop (viewportStart selected items count)).take count

/-- `selectedViewport` -/
def selectedViewport (items : List α) (capacity : ℕ) : List α :=
  let count := min capacity items.length
  if count = items.length then items
  else if count = 0 then []
  else viewport selected items count

/-- `visibleRolls` -/
def visibleItems (items : List α) (capacity : ℕ) : List α :=
  let count := min capacity items.length
  if count = items.length then items else viewport selected items count

end

/-! ## Home -/

/-- What of Home's optional rows is still shown. -/
structure HubPlan where
  prefixRows : ℕ
  visibleQuiet : Bool
  visibleUnknown : List JsString
  afterEntries : ℕ
  afterQuiet : ℕ

namespace HubPlan

def start (frame : HubFrameView) : HubPlan :=
  let unknown := frame.unknownNames.getD []
  { prefixRows := 1
    visibleQuiet := frame.quietLine.isSome
    visibleUnknown := unknown
    afterEntries := if frame.quietLine.isSome ∨ unknown.length > 0 then 1 else 0
    afterQuiet := if frame.quietLine.isSome ∧ unknown.length > 0 then 1 else 0 }

def reservedRows (p : HubPlan) : ℕ :=
  p.prefixRows + p.afterEntries + (if p.visibleQuiet then 1 + p.afterQuiet else 0) +
    (if p.visibleUnknown = [] then 0 else 1 + p.visibleUnknown.length)

/-- One more optional row given up; none if there is nothing left. -/
def shed (p : HubPlan) : Option HubPlan :=
  if p.prefixRows > 0 then some { p with prefixRows := p.prefixRows - 1 }
  else if p.afterEntries > 0 then some { p with afterEntries := 0 }
  else if p.afterQuiet > 0 then some { p with afterQuiet := 0 }
  else if p.visibleUnknown ≠ [] then some { p with visibleUnknown := p.visibleUnknown.dropLast }
  else if p.visibleQuiet then some { p with visibleQuiet := false }
  else none

/-- How much there is to give up. -/
def optional (p : HubPlan) : ℕ :=
  p.prefixRows + p.afterEntries + p.afterQuiet + p.visibleUnknown.length + p.visibleQuiet.toNat

theorem shed_lt {p p' : HubPlan} (h : p.shed = some p') : p'.optional < p.optional := by
  unfold shed at h
  split at h
  · cases h
    simp only [optional]
    omega
  split at h
  · cases h
    simp only [optional]
    omega
  split at h
  · cases h
    simp only [optional]
    omega
  split at h
  · next hne =>
    cases h
    have := List.length_pos_of_ne_nil hne
    simp only [optional, List.length_dropLast]
    omega
  split at h
  · next hquiet =>
    cases h
    simp [optional, hquiet]
  · cases h

/-- The loop that makes room for the entries. -/
def shedRows (capacity minimumEntries : ℕ) (p : HubPlan) : HubPlan :=
  if (capacity : ℤ) - p.reservedRows < minimumEntries then
    match _h : p.shed with
    | none => p
    | some p' => shedRows capacity minimumEntries p'
  else p
termination_by p.optional
decreasing_by exact shed_lt _h

end HubPlan

structure FrameInterior where
  rows : List JsString
  bottomTitle : Option JsString := none

def hubEntryLine (card : CardGeometry) (entry : HubEntryView) : JsString :=
  stopLine entry.selected entry.name entry.detail (detailStop card)

def hubRows (frame : HubFrameView) (card : CardGeometry) (anatomy : ComfortAnatomy) : FrameInterior :=
  let capacity := anatomy.frameRows - 2
  let plan := HubPlan.shedRows capacity (if frame.entries.length = 0 then 0 else 1) (.start frame)
  let entryCapacity := capacity - plan.reservedRows
  let entries := viewport (·.selected) frame.entries (min entryCapacity frame.entries.length)
  { rows :=
      List.replicate plan.prefixRows [] ++ entries.map (hubEntryLine card) ++ List.replicate plan.afterEntries [] ++
        (match plan.visibleQuiet, frame.quietLine with
          | true, some quietLine => indented quietLine :: List.replicate plan.afterQuiet []
          | _, _ => []) ++
        if plan.visibleUnknown.length > 0 then
          indented (frame.unknownHeader.getD (js "Activity unknown")) :: plan.visibleUnknown.map indented
        else []
    bottomTitle := some frame.bottomTitle }

/-! ## The other frames -/

def rollLine (card : CardGeometry) (roll : RollLineView) : JsString :=
  stopLine roll.selected roll.identity roll.detail (detailStop card)

/-- The rows of the horse, or of the line that stands in its place. -/
def horseRows (horse : HorseView) (anatomy : ComfortAnatomy) : Except Failure (List JsString) :=
  match horse with
  | .gallop frameIndex =>
    match if frameIndex < 0 then none else horseRiderlessCompactFrames[frameIndex.toNat]? with
    | none => .error (.rangeError s!"no horse frame {frameIndex}")
    | some plate =>
      .ok (plate.map fun artRow => blanks ((anatomy.interiorCells - compactHorseCells) / 2) ++ js artRow)
  | .intertitle text => do
    let blank := (compactHorseRows - 1) / 2
    let line ← centerCells text anatomy.interiorCells
    return List.replicate blank [] ++ line :: List.replicate (compactHorseRows - (blank + 1)) []

def HorseView.isGallop : HorseView → Bool
  | .gallop _ => true
  | .intertitle _ => false

/-- The horse, and the line of telemetry under it. -/
def instrumentRows (frame : WorkingFrameView) (card : CardGeometry) (anatomy : ComfortAnatomy) :
    Except Failure (List JsString) := do
  let horse ← horseRows frame.horse anatomy
  if card.tier = .comfort ∧ frame.horse.isGallop then
    let telemetry ← centerCells (frame.telemetry.getD []) anatomy.interiorCells
    return horse ++ [telemetry]
  else return horse

def workingRows (frame : WorkingFrameView) (card : CardGeometry) (anatomy : ComfortAnatomy) :
    Except Failure (List JsString) := do
  let instruments ← instrumentRows frame card anatomy
  -- a spare row separates the roster, unless it would hide a session
  let separated :=
    if frame.horse.isGallop ∧ frame.rolls.length > 0 ∧
        instruments.length + 1 + frame.rolls.length ≤ anatomy.frameRows - 2 then instruments ++ [[]]
    else instruments
  return separated ++ frame.rolls.map (rollLine card)

/-- `text.padEnd(count)` -/
def padEnd (text : JsString) (count : ℕ) : JsString := text ++ blanks (count - text.length)

def exposureLine (exposure : ExposureRowView) (sequenceCells interiorCells : ℕ) : JsString :=
  let sequence := padEnd (35 :: exposure.sequence) sequenceCells
  let marker : UInt16 := if exposure.selected then 62 else 32
  let start := marker :: 32 :: (sequence ++ blanks 2 ++ exposure.time ++ blanks 2)
  let exception := exposure.exception.elim [] fun exception => js "! " ++ exception ++ js " · "
  let source :=
    if exposure.excerptTruncated ∧ ¬ (js "...").isSuffixOf (trimEnd exposure.excerpt) then
      trimEnd exposure.excerpt ++ js "..."
    else exposure.excerpt
  start ++ clipWords (exception ++ source) (interiorCells - measureCells start)

def idleRows (frame : IdleFrameView) (card : CardGeometry) (anatomy : ComfortAnatomy) : List JsString :=
  let capacity := anatomy.frameRows - 2
  let rolls := selectedViewport (·.selected) frame.rolls (idleRollCapacity card)
  let exposureCapacity := capacity - rolls.length - 1
  let exposures := frame.exposures.drop (frame.exposures.length - exposureCapacity)
  let spare := (capacity : ℤ) - exposures.length - rolls.length - 1
  let allExposuresFit := exposures.length = frame.exposures.length
  let gapBeforeSummary := allExposuresFit ∧ spare > 0
  let gapAfterSummary := allExposuresFit ∧ spare - 1 > 0
  let leadingBreath := allExposuresFit ∧ spare - 2 > 0
  let sequenceCells := (exposures.map fun exposure => exposure.sequence.length + 1).foldl max 2
  (if leadingBreath then [[]] else []) ++
    exposures.map (exposureLine · sequenceCells anatomy.interiorCells) ++
    (if gapBeforeSummary then [[]] else []) ++ indented frame.summaryLine ::
    ((if gapAfterSummary then [[]] else []) ++ rolls.map (rollLine card))

def helpRows (frame : HelpFrameView) : List JsString :=
  frame.keyRows.map termLine ++ [] :: frame.wordRows.map termLine

def intertitleRows (frame : IntertitleFrameView) (anatomy : ComfortAnatomy) : Except Failure (List JsString) := do
  let lead := (anatomy.frameRows - 2 - frame.lines.length) / 2
  let lines ← frame.lines.mapM fun line => centerCells line anatomy.interiorCells
  return List.replicate lead [] ++ lines

/-- The loop of `translatedRow`. -/
def translateLoop (width : ℤ) : List ℕ → JsString → ℤ → ℤ → Bool → JsString
  | [], output, _, _, _ => output
  | c :: cs, output, outputCells, sourceCell, previousVisible =>
    if charCells c = 0 then
      translateLoop width cs (if previousVisible then output ++ Utf16.unitsOne c else output) outputCells sourceCell
        previousVisible
    else
      let start := sourceCell
      let stop := start + charCells c
      -- a glyph straddling the left edge cannot be painted partially
      if stop ≤ 0 ∨ start < 0 then translateLoop width cs output outputCells stop false
      else if start ≥ width ∨ stop > width then output
      else
        let gap := if outputCells < start then blanks (start - outputCells).toNat else []
        translateLoop width cs (output ++ gap ++ Utf16.unitsOne c) stop stop true

/-- Paint a row at a signed cell position without emitting partial glyphs. -/
def translatedRow (text : JsString) (left : ℤ) (width : ℕ) : Except Failure JsString :=
  padCells (translateLoop width (Utf16.codePoints (sanitizeCells text)) [] 0 left false) width

/-- The plate of a traversal, in the size of the tier. -/
def traversalArt (card : CardGeometry) (frameIndex : ℤ) : Except Failure (List String) :=
  if card.tier = .comfort then brandedHeroHorseFrame frameIndex else horseFrame frameIndex .compact

/-- Keep the house chrome still while one horse pass crosses its interior. -/
def traversalRows (frame : TraversalFrameView) (card : CardGeometry) (anatomy : ComfortAnatomy) :
    Except Failure (List JsString) :=
  if frame.progress < 0 ∨ frame.progress > 1 then
    .error (.rangeError "traversal progress must be from 0 to 1")
  else do
    let art ← traversalArt card frame.frameIndex
    let artWidth : ℕ := if card.tier = .comfort then 56 else compactHorseCells
    -- `Math.round`
    let left := ⌊-(artWidth : ℚ) + frame.progress * (anatomy.interiorCells + artWidth) + 1 / 2⌋
    let rows ← art.mapM fun row => translatedRow (js row) left anatomy.interiorCells
    if card.tier ≠ .comfort ∧ rows.length < anatomy.frameRows - 2 then
      let name ← centerCells (js "B A R B A R O") anatomy.interiorCells
      return name :: rows
    else return rows

/-- One field of the form, with the cursor in it if it is focused. -/
def fieldRows (showCursor : Bool) (field : CreateFieldView) : Except Failure (List JsString) := do
  let marker : UInt16 := if field.focused then 62 else 32
  let cursor := if field.focused && showCursor then js "_" else []
  let content := clipCells (sanitizeCells field.value ++ cursor) (formFieldClose - formFieldOpen - 2)
  let opened := blanks formFieldOpen ++ js "[ " ++ content
  let fill ← repeatUnit 32 (formFieldClose - measureCells opened)
  return [marker :: 32 :: sanitizeCells field.label, opened ++ fill ++ js "]", []]

def formRows (frame : CreateFormFrameView) : Except Failure (List JsString) := do
  let fields ← frame.fields.mapM (fieldRows frame.showCursor)
  return [] :: fields.flatten ++ frame.hints.map (fun hint => indented (sanitizeCells hint)) ++
    [[], indented (sanitizeCells frame.status)]

def commandRows (command : CreatedCommandView) : List JsString :=
  let text := sanitizeCells command.text
  let line :=
    if command.selected ∧ command.manualHighlight then js "> [ " ++ text ++ js " ]"
    else if command.selected then js "> " ++ text
    else js "  " ++ text
  [indented (sanitizeCells command.heading), line, []]

def createdRows (frame : CreatedFrameView) (anatomy : ComfortAnatomy) : Except Failure (List JsString) := do
  let name ← centerCells frame.name anatomy.interiorCells
  let subtitle ← frame.subtitle.toList.mapM fun subtitle =>
    centerCells (clipWords subtitle anatomy.interiorCells) anatomy.interiorCells
  let idLine ← centerCells frame.idLine anatomy.interiorCells
  return [] :: name :: subtitle ++ idLine :: [] :: frame.commands.flatMap commandRows

/-! ## The card -/

def plainFrame (rows : List JsString) : FrameInterior := { rows }

def frameLayout (frame : FrameView) (card : CardGeometry) (anatomy : ComfortAnatomy) : Except Failure FrameInterior :=
  match frame with
  | .hub frame => .ok (hubRows frame card anatomy)
  | .working frame => plainFrame <$> workingRows frame card anatomy
  | .idle frame => .ok (plainFrame (idleRows frame card anatomy))
  | .help frame => .ok (plainFrame (helpRows frame))
  | .intertitle frame => plainFrame <$> intertitleRows frame anatomy
  | .traversal frame => plainFrame <$> traversalRows frame card anatomy
  | .form frame => plainFrame <$> formRows frame
  | .created frame => plainFrame <$> createdRows frame anatomy

/-- Exactly as many rows as the interior has. -/
def fitRows (rows : List JsString) (count : ℕ) : List JsString :=
  rows.take count ++ List.replicate (count - rows.length) []

def frameInterior (frame : FrameView) (card : CardGeometry) (anatomy : ComfortAnatomy) :
    Except Failure FrameInterior := do
  let layout ← frameLayout frame card anatomy
  return { layout with rows := fitRows layout.rows (anatomy.frameRows - 2) }

/-- A line outside the frame. -/
def captionLine (text : JsString) (width : ℕ) : Except Failure JsString := padCells (clipWords text width) width

def renderCard (view : CardView) (card : CardGeometry) (anatomy : ComfortAnatomy) :
    Except Failure (List JsString) := do
  let strip ← topStripRow (js "Barbaro") view.location card.width
  let truth ← captionLine view.truth card.width
  let layout ← frameInterior view.frame card anatomy
  let top ← frameTop (sanitizeCells view.frame.title) card.width
  let interior ← layout.rows.mapM fun row => frameLine row anatomy.interiorCells
  let bottom ← frameBottom card.width (layout.bottomTitle.getD [])
  let bench ← (List.range anatomy.benchRows).mapM fun row => captionLine (view.bench.getD row []) card.width
  let keys ← padCells (fitKeyLine view.keyLine card.width) card.width
  return [strip, truth, blanks card.width, top] ++ interior ++ [bottom, blanks card.width] ++ bench ++
    [blanks card.width, keys]

def renderComfortCard (view : CardView) : Except Failure (List JsString) := renderCard view comfortCard comfortAnatomy

def renderSubCard (view : CardView) : Except Failure (List JsString) := renderCard view subCard subAnatomy

/-- Detail is removed by a selected-visible viewport, never by squeezing. -/
def trimFrameForCard (frame : FrameView) (card : CardGeometry) : FrameView :=
  match frame with
  | .working frame =>
    let capacity : Option ℕ :=
      if card.tier = .sub then some 2
      else if card.tier ≠ .comfort then none
      else if frame.horse.isGallop then some 5 else some 6
    match capacity with
    | none => .working frame
    | some capacity => .working { frame with rolls := visibleItems (·.selected) frame.rolls capacity }
  | frame => frame

/-! ## What the viewports show -/

section
variable {α : Type} (selected : α → Bool) {items : List α}

theorem selectedIndex_lt (h : items ≠ []) : selectedIndex selected items < items.length := by
  have hpos := List.length_pos_of_ne_nil h
  rw [selectedIndex]
  cases hfind : items.findIdx? selected with
  | none => exact hpos
  | some i => exact (List.findIdx?_eq_some_iff_getElem.1 hfind).1

/-- **A viewport shows the selected item**, if it shows any. -/
theorem viewport_selected (items : List α) (count : ℕ) (hpos : 0 < count) (hle : count ≤ items.length) :
    ∃ place < count, (viewport selected items count)[place]? = items[selectedIndex selected items]? := by
  have hlt : selectedIndex selected items < items.length :=
    selectedIndex_lt selected (List.ne_nil_of_length_pos (by omega))
  set i := selectedIndex selected items with hi
  have hstart : viewportStart selected items count ≤ i ∧ i < viewportStart selected items count + count := by
    rw [viewportStart, ← hi]
    omega
  refine ⟨i - viewportStart selected items count, by omega, ?_⟩
  rw [viewport, List.getElem?_take, if_pos (by omega), List.getElem?_drop]
  congr 1
  omega

theorem viewport_length (items : List α) (count : ℕ) (hle : count ≤ items.length) : (viewport selected items count).length = count := by
  have hstart : viewportStart selected items count ≤ items.length - count := Nat.min_le_right _ _
  rw [viewport, List.length_take, List.length_drop]
  omega

theorem visibleItems_selected {capacity : ℕ} (hpos : 0 < capacity) (hne : items ≠ []) :
    (visibleItems selected items capacity).length ≤ capacity ∧
      ∃ place, (visibleItems selected items capacity)[place]? = items[selectedIndex selected items]? ∧
        place < (visibleItems selected items capacity).length := by
  have hlen := List.length_pos_of_ne_nil hne
  have hlt := selectedIndex_lt selected hne
  rw [visibleItems]
  split
  · exact ⟨by omega, _, rfl, hlt⟩
  · obtain ⟨place, hplace, hget⟩ := viewport_selected selected items (min capacity items.length)
      (by omega) (by omega)
    have hlength := viewport_length selected items (min capacity items.length) (by omega)
    exact ⟨by omega, place, hget, by omega⟩

theorem selectedViewport_selected {capacity : ℕ} (hpos : 0 < capacity) (hne : items ≠ []) :
    selectedViewport selected items capacity = visibleItems selected items capacity := by
  have hlen := List.length_pos_of_ne_nil hne
  rw [selectedViewport, visibleItems, if_neg (show ¬ min capacity items.length = 0 by omega)]

end

end Barbaro.Tui
