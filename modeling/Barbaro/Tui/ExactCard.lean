import Barbaro.Tui.RenderCard

/-!
# Cards have exact geometry

Whatever is in a view, its card is exactly as large as its tier says, and what is selected in it
is painted. The rows of the interior may be anything: they are cut to the number of rows and
to the cells between the walls only when they are painted.

* `frameLayout_ok`: the rows of every frame can be built.
* `renderCard_exact`: the size of a card and its walls, for any rows.
* `cards_exact`: both tiers, what is composed of them, and what is selected.
-/

namespace Barbaro.Tui

/-! ## The framed tiers -/

inductive FramedTier
  | comfort
  | sub
  deriving DecidableEq, Repr

namespace FramedTier

def card : FramedTier → CardGeometry
  | comfort => comfortCard
  | sub => subCard

def anatomy : FramedTier → ComfortAnatomy
  | comfort => comfortAnatomy
  | sub => subAnatomy

def render : FramedTier → CardView → Except Failure (List JsString)
  | comfort => renderComfortCard
  | sub => renderSubCard

theorem render_eq (tier : FramedTier) (view : CardView) : tier.render view = renderCard view tier.card tier.anatomy := by
  cases tier <;> rfl

/-- The rows and cells of a card add up. -/
theorem sizes (tier : FramedTier) : tier.anatomy.interiorCells + 2 = tier.card.width ∧ 16 ≤ tier.card.width ∧
    10 ≤ tier.anatomy.frameRows - 2 ∧ tier.card.height = tier.anatomy.frameRows - 2 + tier.anatomy.benchRows + 8 := by
  cases tier <;> decide

end FramedTier

/-! ## Rows that can be built -/

/-- The frame has a progress between 0 and 1 and a valid horse frame index. -/
def FrameView.Valid : FrameView → Prop
  | .working frame =>
    match frame.horse with
    | .gallop frameIndex => 0 ≤ frameIndex ∧ frameIndex < horseRiderlessCompactFrames.length
    | .intertitle _ => True
  | .traversal frame => 0 ≤ frame.progress ∧ frame.progress ≤ 1 ∧ frame.frameIndex.natAbs ≤ maxSafeInteger
  | _ => True

theorem mapM_ok {α β : Type} {f : α → Except Failure β} (xs : List α) (h : ∀ x ∈ xs, ∃ y, f x = .ok y) :
    ∃ ys, xs.mapM f = .ok ys := by
  induction xs with
  | nil => exact ⟨[], rfl⟩
  | cons x xs ih =>
    obtain ⟨y, hy⟩ := h x List.mem_cons_self
    obtain ⟨ys, hys⟩ := ih fun z hz => h z (List.mem_cons_of_mem _ hz)
    refine ⟨y :: ys, ?_⟩
    rw [List.mapM_cons, hy, hys]
    rfl

theorem mapM_get {α β : Type} {f : α → Except Failure β} {xs : List α} {ys : List β} (h : xs.mapM f = .ok ys)
    {i : ℕ} {x : α} (hx : xs[i]? = some x) : ∃ y, f x = .ok y ∧ ys[i]? = some y := by
  induction xs generalizing ys i with
  | nil => cases hx
  | cons z xs ih =>
    rw [List.mapM_cons] at h
    simp only [Outcome.bind_ok, Outcome.pure_ok] at h
    obtain ⟨y, hy, ys, hys, rfl⟩ := h
    cases i with
    | zero =>
      cases hx
      exact ⟨y, hy, rfl⟩
    | succ i => exact ih hys hx

theorem centerCells_ok (text : JsString) (width : ℕ) : ∃ line, centerCells text width = .ok line :=
  (centerCells_exact text width).imp fun _ h => h.1

/-- The rows of the horse: eight of them. -/
theorem horseRows_ok (horse : HorseView) (anatomy : ComfortAnatomy)
    (h : ∀ frameIndex, horse = .gallop frameIndex →
      0 ≤ frameIndex ∧ frameIndex < horseRiderlessCompactFrames.length) :
    ∃ rows, horseRows horse anatomy = .ok rows ∧ rows.length = 8 := by
  cases horse with
  | gallop frameIndex =>
    obtain ⟨hpos, hlt⟩ := h frameIndex rfl
    have hbound : frameIndex.toNat < horseRiderlessCompactFrames.length := by omega
    have hplate := List.getElem?_eq_getElem hbound
    have hrows := compactPlate_rows (List.getElem_mem hbound)
    rw [horseRows, if_neg (by omega), hplate]
    exact ⟨_, rfl, by rw [List.length_map, hrows]⟩
  | intertitle text =>
    obtain ⟨line, hline⟩ := centerCells_ok text anatomy.interiorCells
    rw [horseRows, hline]
    exact ⟨_, rfl, by simp [compactHorseRows]⟩

theorem instrumentRows_ok (frame : WorkingFrameView) (hvalid : (FrameView.working frame).Valid) (card : CardGeometry)
    (anatomy : ComfortAnatomy) : ∃ rows, instrumentRows frame card anatomy = .ok rows ∧
      rows.length = 8 + if card.tier = .comfort ∧ frame.horse.isGallop then 1 else 0 := by
  obtain ⟨horse, hhorse, hlength⟩ := horseRows_ok frame.horse anatomy fun frameIndex hframe => by
    rw [FrameView.Valid, hframe] at hvalid
    exact hvalid
  rw [instrumentRows, hhorse, Outcome.ok_bind]
  split
  · obtain ⟨telemetry, htelemetry⟩ := centerCells_ok (frame.telemetry.getD []) anatomy.interiorCells
    rw [htelemetry]
    exact ⟨_, rfl, by rw [List.length_append, hlength]; rfl⟩
  · exact ⟨_, rfl, hlength⟩

theorem fieldRows_ok (showCursor : Bool) (field : CreateFieldView) : ∃ rows, fieldRows showCursor field = .ok rows := by
  rw [fieldRows]
  set content := clipCells (sanitizeCells field.value ++ if (field.focused && showCursor) = true then js "_" else [])
    ((formFieldClose : ℤ) - formFieldOpen - 2) with hcontent
  have hfits : (measureCells content : ℤ) ≤ 51 := clip_fits _ _
  have hopened : measureCells (blanks formFieldOpen ++ js "[ " ++ content) = measureCells content + 4 := by
    have hunits : blanks formFieldOpen ++ js "[ " ++ content = 32 :: 32 :: 91 :: 32 :: content := rfl
    have hblank := measureCells_cons (u := 32) (by decide)
    rw [hunits, hblank, hblank, measureCells_cons (by decide), hblank]
    have hone : charCells (32 : UInt16).toNat = 1 ∧ charCells (91 : UInt16).toNat = 1 := by decide
    omega
  have hclose : (formFieldClose : ℤ) = 55 := rfl
  rw [hopened, repeatUnit_ok (by omega)]
  exact ⟨_, rfl⟩

/-- **The rows of a frame can be built.** -/
theorem frameLayout_ok {frame : FrameView} (hvalid : frame.Valid) (card : CardGeometry) (anatomy : ComfortAnatomy) :
    ∃ layout, frameLayout frame card anatomy = .ok layout := by
  cases frame with
  | hub frame => exact ⟨_, rfl⟩
  | idle frame => exact ⟨_, rfl⟩
  | help frame => exact ⟨_, rfl⟩
  | working frame =>
    obtain ⟨rows, hrows, -⟩ := instrumentRows_ok frame hvalid card anatomy
    rw [frameLayout, workingRows, hrows]
    exact ⟨_, rfl⟩
  | intertitle frame =>
    obtain ⟨lines, hlines⟩ := mapM_ok frame.lines fun line _ => centerCells_ok line anatomy.interiorCells
    rw [frameLayout, intertitleRows, hlines]
    exact ⟨_, rfl⟩
  | traversal frame =>
    obtain ⟨hpos, hle, hindex⟩ := hvalid
    have hhorse : ∀ scale, ∃ art, horseFrame frame.frameIndex scale = .ok art := fun scale => by
      rw [horseFrame, if_neg (by omega)]
      exact ⟨_, rfl⟩
    have hart : ∃ art, traversalArt card frame.frameIndex = .ok art := by
      rw [traversalArt]
      split
      · obtain ⟨art, h⟩ := hhorse .hero
        rw [brandedHeroHorseFrame, h]
        exact ⟨_, rfl⟩
      · exact hhorse .compact
    obtain ⟨art, hart⟩ := hart
    have hrows : ∀ left, ∃ rows, art.mapM (fun row => translatedRow (js row) left anatomy.interiorCells) = .ok rows :=
      fun left => mapM_ok art fun row _ => (padCells_exact _ _).imp fun _ h => h.1
    rw [frameLayout, traversalRows, if_neg (by rintro (h | h) <;> linarith), hart, Outcome.ok_bind]
    obtain ⟨rows, hrows⟩ := hrows ⌊-((if card.tier = .comfort then 56 else compactHorseCells : ℕ) : ℚ) +
      frame.progress * (anatomy.interiorCells + (if card.tier = .comfort then 56 else compactHorseCells : ℕ)) + 1 / 2⌋
    dsimp only
    rw [hrows, Outcome.ok_bind]
    split
    · obtain ⟨name, hname⟩ := centerCells_ok (js "B A R B A R O") anatomy.interiorCells
      rw [hname]
      exact ⟨_, rfl⟩
    · exact ⟨_, rfl⟩
  | form frame =>
    obtain ⟨fields, hfields⟩ := mapM_ok frame.fields fun field _ => fieldRows_ok frame.showCursor field
    rw [frameLayout, formRows, hfields]
    exact ⟨_, rfl⟩
  | created frame =>
    obtain ⟨name, hname⟩ := centerCells_ok frame.name anatomy.interiorCells
    obtain ⟨subtitle, hsubtitle⟩ := mapM_ok frame.subtitle.toList fun subtitle _ =>
      centerCells_ok (clipWords subtitle anatomy.interiorCells) anatomy.interiorCells
    obtain ⟨idLine, hidLine⟩ := centerCells_ok frame.idLine anatomy.interiorCells
    rw [frameLayout, createdRows, hname, hsubtitle, hidLine]
    exact ⟨_, rfl⟩

/-! ## The card -/

theorem topStripRow_exact {left : JsString} {width : ℕ} (hleft : measureCells (clipCells (sanitizeCells left) width) < width)
    (right : JsString) : ∃ line, topStripRow left right width = .ok line ∧ Exact width line := by
  obtain ⟨m, hm, -⟩ := clip_sanitized left width
  rw [hm.measure] at hleft
  obtain ⟨n, hn, hle⟩ := clip_sanitized right ((width : ℤ) - m - 1)
  -- at least one blank stands between them
  have hroom : (width : ℤ) - m - n = ((width - m - n - 1 + 1 : ℕ) : ℤ) := by omega
  have hright := hn.replicate_append narrow_blank (width - m - n - 1 + 1)
  rw [List.replicate_succ, List.cons_append] at hright
  have hline := hm.append_cons narrow_blank.2.1 hright
  rw [show m + (width - m - n - 1 + 1 + n) = width by omega] at hline
  refine ⟨_, ?_, hline⟩
  rw [topStripRow, hm.measure, hn.measure, hroom, repeatUnit_nat, List.replicate_succ, Outcome.ok_bind, List.cons_append]
  rfl

theorem fitRows_length (rows : List JsString) (count : ℕ) : (fitRows rows count).length = count := by
  rw [fitRows, List.length_append, List.length_take, List.length_replicate]
  omega

theorem fitRows_get {rows : List JsString} {count i : ℕ} {row : JsString} (hi : i < count) (h : rows[i]? = some row) :
    (fitRows rows count)[i]? = some row := by
  have hlt := (List.getElem?_eq_some_iff.1 h).1
  rw [fitRows, List.getElem?_append_left (by rw [List.length_take]; omega), List.getElem?_take, if_pos hi, h]

/-- This row stands between the walls of a card. -/
def Painted (lines : List JsString) (anatomy : ComfortAnatomy) (row : JsString) : Prop :=
  ∃ i < anatomy.frameRows - 2, ∃ padded, padCells row anatomy.interiorCells = .ok padded ∧
    lines[4 + i]? = some (wall :: padded ++ [wall])

/-- Every line of the interior stands between two walls. -/
def Walled (lines : List JsString) (anatomy : ComfortAnatomy) : Prop :=
  ∀ i < anatomy.frameRows - 2, ∃ padded, Exact anatomy.interiorCells padded ∧
    lines[4 + i]? = some (wall :: padded ++ [wall])

/-- **A card is exactly as large as its tier says**, and its walls stand where they stand. -/
theorem renderCard_exact (tier : FramedTier) (view : CardView) {layout : FrameInterior}
    (hlayout : frameLayout view.frame tier.card tier.anatomy = .ok layout) :
    ∃ lines, tier.render view = .ok lines ∧ ExactLines tier.card.width tier.card.height lines ∧
      Walled lines tier.anatomy ∧
      ∀ i < tier.anatomy.frameRows - 2, ∀ row, layout.rows[i]? = some row → Painted lines tier.anatomy row := by
  obtain ⟨hcells, hwidth, -, hheight⟩ := tier.sizes
  set card := tier.card
  set anatomy := tier.anatomy
  set rows := fitRows layout.rows (anatomy.frameRows - 2) with hrows
  have hbrand : measureCells (clipCells (sanitizeCells (js "Barbaro")) card.width) < card.width := by
    cases tier <;> decide
  have hnarrow : IsNarrow 0x250C ∧ IsNarrow 0x2510 ∧ IsNarrow 0x2514 ∧ IsNarrow 0x2518 := by decide
  obtain ⟨strip, hstrip, hstripExact⟩ := topStripRow_exact hbrand view.location
  obtain ⟨truth, htruth, htruthExact⟩ := padCells_exact (clipWords view.truth card.width) card.width
  obtain ⟨top, htop, htopExact⟩ := titledBorder_exact hnarrow.1 hnarrow.2.1 (sanitizeCells view.frame.title)
    card.width (by omega) .left
  obtain ⟨interior, hinterior, hinteriorExact⟩ := mapM_exact
    (fun row => frameLine row anatomy.interiorCells) rows fun row _ => by
      obtain ⟨padded, -, -, hline, hexact⟩ := frameLine_exact row anatomy.interiorCells
      rw [hcells] at hexact
      exact ⟨_, hline, hexact⟩
  obtain ⟨bottom, hbottom, hbottomExact⟩ := titledBorder_exact hnarrow.2.2.1 hnarrow.2.2.2 (layout.bottomTitle.getD [])
    card.width (by omega) .right
  obtain ⟨bench, hbench, hbenchExact⟩ := mapM_exact
    (fun row => captionLine (view.bench.getD row []) card.width) (List.range anatomy.benchRows)
    fun row _ => padCells_exact _ card.width
  obtain ⟨keys, hkeys, hkeysExact⟩ := padCells_exact (fitKeyLine view.keyLine card.width) card.width
  have hrender : tier.render view = .ok ([strip, truth, blanks card.width, top] ++ interior ++
      [bottom, blanks card.width] ++ bench ++ [blanks card.width, keys]) := by
    have hframeTop : frameTop (sanitizeCells view.frame.title) card.width = .ok top := htop
    have hframeBottom : frameBottom card.width (layout.bottomTitle.getD []) = .ok bottom := hbottom
    have hcaption : captionLine view.truth card.width = .ok truth := htruth
    have hframe : frameInterior view.frame card anatomy = .ok { layout with rows := rows } := by
      rw [frameInterior, hlayout]
      rfl
    rw [tier.render_eq, renderCard, hstrip, Outcome.ok_bind, hcaption, Outcome.ok_bind, hframe, Outcome.ok_bind,
      hframeTop, Outcome.ok_bind, hinterior, Outcome.ok_bind, hframeBottom, Outcome.ok_bind, hbench, Outcome.ok_bind,
      hkeys]
    rfl
  have hlength : interior.length = anatomy.frameRows - 2 := by
    rw [hinteriorExact.height, hrows, fitRows_length]
  have hget : ∀ i < anatomy.frameRows - 2, ([strip, truth, blanks card.width, top] ++ interior ++
      [bottom, blanks card.width] ++ bench ++ [blanks card.width, keys])[4 + i]? = interior[i]? := by
    intro i hi
    simp only [List.append_assoc]
    rw [List.getElem?_append_right (by simp), List.getElem?_append_left (by simp; omega)]
    congr 1
    simp
  refine ⟨_, hrender, ⟨?_, ?_⟩, ?_, ?_⟩
  · simp only [List.length_append, List.length_cons, List.length_nil, hlength, hbenchExact.height, List.length_range]
    omega
  · intro line hline
    have hblanks := blanks_exact card.width
    simp only [List.mem_append, List.mem_cons, List.not_mem_nil, or_false] at hline
    rcases hline with (((((rfl | rfl | rfl | rfl) | hline) | (rfl | rfl)) | hline) | (rfl | rfl))
    · exact hstripExact
    · exact htruthExact
    · exact hblanks
    · exact htopExact
    · exact hinteriorExact.width line hline
    · exact hbottomExact
    · exact hblanks
    · exact hbenchExact.width line hline
    · exact hblanks
    · exact hkeysExact
  · intro i hi
    have hrow : i < rows.length := by rw [hrows, fitRows_length]; exact hi
    obtain ⟨line, hline, hat⟩ := mapM_get hinterior (List.getElem?_eq_getElem hrow)
    obtain ⟨padded, -, hexact, hwalls, -⟩ := frameLine_exact rows[i] anatomy.interiorCells
    rw [hwalls] at hline
    cases hline
    exact ⟨padded, hexact, by rw [hget i hi, hat]⟩
  · intro i hi row hrow
    obtain ⟨line, hline, hat⟩ := mapM_get hinterior (fitRows_get hi hrow)
    obtain ⟨padded, hpad, -, hwalls, -⟩ := frameLine_exact row anatomy.interiorCells
    rw [hwalls] at hline
    cases hline
    exact ⟨i, hi, padded, hpad, by rw [hget i hi, hat]⟩

/-! ## What is selected -/

/-- The selected item of a list: the first one that is marked. -/
def IsSelected {α : Type} (selected : α → Bool) (items : List α) (item : α) : Prop :=
  ∃ i, items.findIdx? selected = some i ∧ items[i]? = some item

theorem IsSelected.index {α : Type} {selected : α → Bool} {items : List α} {item : α}
    (h : IsSelected selected items item) : items ≠ [] ∧ items[selectedIndex selected items]? = some item := by
  obtain ⟨i, hfind, hget⟩ := h
  refine ⟨?_, ?_⟩
  · rintro rfl
    cases hget
  · rw [selectedIndex, hfind]
    exact hget

theorem HubPlan.reserved_of_shed {p : HubPlan} (h : p.shed = none) : p.reservedRows = 0 := by
  unfold HubPlan.shed at h
  split_ifs at h with h₁ h₂ h₃ h₄ h₅
  rw [not_not] at h₄
  rw [HubPlan.reservedRows, if_neg h₅, if_pos h₄]
  omega

/-- **The loop makes room** for the entries. -/
theorem HubPlan.shedRows_room {capacity minimumEntries : ℕ} (hmin : minimumEntries ≤ capacity) (p : HubPlan) :
    (shedRows capacity minimumEntries p).reservedRows + minimumEntries ≤ capacity := by
  induction p using HubPlan.shedRows.induct capacity minimumEntries with
  | case1 p hroom hshed =>
    have hzero := reserved_of_shed hshed
    omega
  | case2 p hroom p' hshed ih =>
    rw [shedRows, if_pos hroom]
    split
    · next hnone => rw [hshed] at hnone; cases hnone
    · next q hsome =>
      rw [hshed] at hsome
      cases hsome
      exact ih
  | case3 p hroom =>
    rw [shedRows, if_neg hroom]
    omega

/-- The row of the selected entry is one of the rows of Home. -/
theorem hubRows_selected {frame : HubFrameView} {entry : HubEntryView} (card : CardGeometry) (anatomy : ComfortAnatomy)
    (hcapacity : 1 ≤ anatomy.frameRows - 2) (h : IsSelected (·.selected) frame.entries entry) :
    ∃ i < anatomy.frameRows - 2, (hubRows frame card anatomy).rows[i]? = some (hubEntryLine card entry) := by
  obtain ⟨hne, hentry⟩ := h.index
  have hpos := List.length_pos_of_ne_nil hne
  have hroom := HubPlan.shedRows_room hcapacity (.start frame)
  have hone : (if frame.entries.length = 0 then 0 else 1) = 1 := if_neg (by omega)
  rw [hubRows, hone]
  set plan := HubPlan.shedRows (anatomy.frameRows - 2) 1 (.start frame)
  obtain ⟨place, hplace, hget⟩ := viewport_selected (fun e : HubEntryView => e.selected)
    frame.entries (min (anatomy.frameRows - 2 - plan.reservedRows) frame.entries.length) (by omega) (by omega)
  have hbefore : plan.prefixRows ≤ plan.reservedRows := by
    rw [HubPlan.reservedRows]
    omega
  refine ⟨plan.prefixRows + place, by omega, ?_⟩
  have hline : ((viewport (fun e : HubEntryView => e.selected) frame.entries
      (min (anatomy.frameRows - 2 - plan.reservedRows) frame.entries.length)).map (hubEntryLine card))[place]? =
        some (hubEntryLine card entry) := by
    rw [List.getElem?_map, hget, hentry]
    rfl
  have hlt := (List.getElem?_eq_some_iff.1 hline).1
  simp only [List.append_assoc]
  rw [List.getElem?_append_right (by simp), List.length_replicate, Nat.add_sub_cancel_left,
    List.getElem?_append_left hlt, hline]

theorem getElem?_after {α : Type} {xs ys : List α} {n i : ℕ} (hn : xs.length = n) : (xs ++ ys)[n + i]? = ys[i]? := by
  rw [← hn, List.getElem?_append_right (by omega), Nat.add_sub_cancel_left]

/-- The rolls that an idle frame shows are among its rows. -/
theorem idleRows_selected {frame : IdleFrameView} {roll : RollLineView} (card : CardGeometry) {anatomy : ComfortAnatomy}
    (hcapacity : 10 ≤ anatomy.frameRows - 2) (h : IsSelected (·.selected) frame.rolls roll) :
    ∃ i < anatomy.frameRows - 2, (idleRows frame card anatomy)[i]? = some (rollLine card roll) := by
  obtain ⟨hne, hroll⟩ := h.index
  have hrolls : 0 < idleRollCapacity card ∧ idleRollCapacity card ≤ 5 := by
    unfold idleRollCapacity
    split <;> omega
  obtain ⟨hlen, place, hget, hplace⟩ := visibleItems_selected (fun r : RollLineView => r.selected)
    hrolls.1 hne
  rw [idleRows, selectedViewport_selected _ hrolls.1 hne]
  set rolls := visibleItems (fun r : RollLineView => r.selected) frame.rolls (idleRollCapacity card)
  set exposures := frame.exposures.drop (frame.exposures.length - (anatomy.frameRows - 2 - rolls.length - 1))
    with hexposures
  have hfit : exposures.length + rolls.length + 1 ≤ anatomy.frameRows - 2 := by
    rw [hexposures, List.length_drop]
    omega
  have hline : (rolls.map (rollLine card))[place]? = some (rollLine card roll) := by
    rw [List.getElem?_map, hget, hroll]
    rfl
  set spare := ((anatomy.frameRows - 2 : ℕ) : ℤ) - exposures.length - rolls.length - 1 with hspare
  set leading : List JsString :=
    if exposures.length = frame.exposures.length ∧ spare - 2 > 0 then [[]] else [] with hleading
  set before : List JsString := if exposures.length = frame.exposures.length ∧ spare > 0 then [[]] else [] with hbefore
  set after : List JsString := if exposures.length = frame.exposures.length ∧ spare - 1 > 0 then [[]] else [] with hafter
  -- the gaps take no more than what is to spare
  have hgaps : leading.length + before.length + after.length ≤ anatomy.frameRows - 2 - exposures.length - rolls.length - 1 := by
    rw [hleading, hbefore, hafter]
    split_ifs <;> simp only [List.length_nil, List.length_singleton] <;> omega
  refine ⟨leading.length + exposures.length + before.length + 1 + after.length + place, by omega, ?_⟩
  rw [← @List.singleton_append _ _ (after ++ _), ← List.append_assoc, ← List.append_assoc,
    getElem?_after (by simp only [List.length_append, List.length_map, List.length_singleton]), hline]

/-- The rolls that are left of a working frame are among its rows. -/
theorem workingRows_selected (tier : FramedTier) {frame : WorkingFrameView} {roll : RollLineView}
    (hvalid : (FrameView.working frame).Valid) (h : IsSelected (·.selected) frame.rolls roll) :
    ∃ layout, frameLayout (trimFrameForCard (.working frame) tier.card) tier.card tier.anatomy = .ok layout ∧
      ∃ i < tier.anatomy.frameRows - 2, layout.rows[i]? = some (rollLine tier.card roll) := by
  obtain ⟨hne, hroll⟩ := h.index
  -- what is left fits under the horse and its telemetry
  obtain ⟨capacity, hpos, htrim, hroom⟩ : ∃ capacity, 0 < capacity ∧
      trimFrameForCard (.working frame) tier.card =
        .working { frame with rolls := visibleItems (·.selected) frame.rolls capacity } ∧
      8 + (if tier.card.tier = .comfort ∧ frame.horse.isGallop then 1 else 0) + capacity ≤
        tier.anatomy.frameRows - 2 := by
    cases tier with
    | sub => exact ⟨2, by decide, rfl, by rw [if_neg (by rintro ⟨h, -⟩; cases h)]; decide⟩
    | comfort =>
      cases hgallop : frame.horse.isGallop with
      | true => exact ⟨5, by decide, by simp [trimFrameForCard, hgallop, FramedTier.card, comfortCard], by decide⟩
      | false => exact ⟨6, by decide, by simp [trimFrameForCard, hgallop, FramedTier.card, comfortCard], by decide⟩
  obtain ⟨hlen, place, hget, hplace⟩ := visibleItems_selected (fun r : RollLineView => r.selected) hpos hne
  set rolls := visibleItems (fun r : RollLineView => r.selected) frame.rolls capacity
  obtain ⟨instruments, hinstruments, hlength⟩ := instrumentRows_ok
    { frame with rolls := rolls } hvalid tier.card tier.anatomy
  have hline : (rolls.map (rollLine tier.card))[place]? = some (rollLine tier.card roll) := by
    rw [List.getElem?_map, hget, hroll]
    rfl
  rw [htrim, frameLayout, workingRows, hinstruments]
  refine ⟨_, rfl, ?_⟩
  dsimp only [plainFrame] at hlength ⊢
  split
  · next hspare =>
    refine ⟨instruments.length + 1 + place, by omega, ?_⟩
    rw [getElem?_after (by simp), hline]
  · refine ⟨instruments.length + place, by omega, ?_⟩
    rw [getElem?_after rfl, hline]

/-! ## Cards -/

/-- What is selected in the frame is painted. -/
def SelectedPainted (tier : FramedTier) (lines : List JsString) : FrameView → Prop
  | .hub frame => ∀ entry, IsSelected (·.selected) frame.entries entry →
      Painted lines tier.anatomy (hubEntryLine tier.card entry)
  | .idle frame => ∀ roll, IsSelected (·.selected) frame.rolls roll →
      Painted lines tier.anatomy (rollLine tier.card roll)
  | _ => True

/-- **Cards have exact geometry for any content.** They are rendered at exactly their size between their walls, and
composed into every terminal that is as wide; what is selected on Home, in an idle frame and in a trimmed working
frame is painted. -/
theorem cards_exact (tier : FramedTier) (view : CardView) (hvalid : view.frame.Valid) :
    (∃ lines, tier.render view = .ok lines ∧ ExactLines tier.card.width tier.card.height lines ∧
      Walled lines tier.anatomy ∧ SelectedPainted tier lines view.frame ∧
      ∀ terminalWidth terminalHeight, tier.card.width ≤ terminalWidth →
        ∃ composed, composeMatte lines tier.card terminalWidth terminalHeight = .ok composed ∧
          ExactLines terminalWidth terminalHeight composed) ∧
    ∀ frame roll, view.frame = .working frame → IsSelected (·.selected) frame.rolls roll →
      ∃ lines, tier.render { view with frame := trimFrameForCard view.frame tier.card } = .ok lines ∧
        ExactLines tier.card.width tier.card.height lines ∧ Painted lines tier.anatomy (rollLine tier.card roll) := by
  have hrows : 10 ≤ tier.anatomy.frameRows - 2 := tier.sizes.2.2.1
  refine ⟨?_, fun frame roll hframe hselected => ?_⟩
  · obtain ⟨layout, hlayout⟩ := frameLayout_ok hvalid tier.card tier.anatomy
    obtain ⟨lines, hrender, hexact, hwalled, hpainted⟩ := renderCard_exact tier view hlayout
    refine ⟨lines, hrender, hexact, hwalled, ?_, fun _ h hw => composeMatte_exact hexact hw h⟩
    cases hframe : view.frame with
    | hub frame =>
      intro entry hentry
      rw [hframe] at hlayout
      obtain rfl : hubRows frame tier.card tier.anatomy = layout := Except.ok.inj hlayout
      obtain ⟨i, hi, hrow⟩ := hubRows_selected tier.card tier.anatomy (by omega) hentry
      exact hpainted i hi _ hrow
    | idle frame =>
      intro roll hroll
      rw [hframe] at hlayout
      obtain rfl : plainFrame (idleRows frame tier.card tier.anatomy) = layout := Except.ok.inj hlayout
      obtain ⟨i, hi, hrow⟩ := idleRows_selected tier.card hrows hroll
      exact hpainted i hi _ hrow
    | _ => trivial
  · rw [hframe] at hvalid ⊢
    obtain ⟨layout, hlayout, i, hi, hrow⟩ := workingRows_selected tier hvalid hselected
    obtain ⟨lines, hrender, hexact, -, hpainted⟩ := renderCard_exact tier
      { view with frame := trimFrameForCard (.working frame) tier.card } hlayout
    exact ⟨lines, hrender, hexact, hpainted i hi _ hrow⟩

/-- A galloping horse over three sessions, of which the last is selected. -/
def threeSessions : WorkingFrameView where
  title := js "t"
  horse := .gallop 10
  telemetry := none
  rolls := [⟨false, js "a", []⟩, ⟨false, js "b", []⟩, ⟨true, js "c", js "\x07"⟩]

/-- The selected session is painted on the smaller card. -/
theorem cards_exact_gallop : ∃ lines,
    FramedTier.sub.render ⟨js "w", js "one", trimFrameForCard (.working threeSessions) subCard, [], js "q quit"⟩ =
        .ok lines ∧
      ExactLines 56 22 lines ∧ Painted lines subAnatomy (js "> c                     ·") := by
  have hvalid : (FrameView.working threeSessions).Valid := ⟨by decide, by decide⟩
  have hline : rollLine subCard ⟨true, js "c", js "\x07"⟩ = js "> c                     ·" := by decide
  rw [← hline]
  exact (cards_exact .sub ⟨js "w", js "one", .working threeSessions, [], js "q quit"⟩ hvalid).2 _ _ rfl ⟨2, rfl, rfl⟩

/-- **The terminal is filled** by the card that is chosen for it. -/
theorem terminal_filled {tier : FramedTier} {width height : ℕ} (hchosen : chooseCard width height = some tier.card)
    {view : CardView} (hvalid : view.frame.Valid) : ∃ lines composed, tier.render view = .ok lines ∧
      composeMatte lines tier.card width height = .ok composed ∧ ExactLines width height composed := by
  obtain ⟨layout, hlayout⟩ := frameLayout_ok hvalid tier.card tier.anatomy
  obtain ⟨lines, hrender, hexact, -⟩ := renderCard_exact tier view hlayout
  obtain ⟨composed, hcomposed⟩ := composeMatte_exact hexact (chooseCard_fits hchosen).1 height
  exact ⟨lines, composed, hrender, hcomposed⟩

end Barbaro.Tui
