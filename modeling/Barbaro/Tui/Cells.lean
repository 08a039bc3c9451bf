import Barbaro.Core.Content
import Barbaro.Core.Patterns
import Barbaro.Lib.Outcome

/-!
# Cells

The comfort card's one sanitized, cell-measured text pipeline. A character takes no cell, one or
two; what may not be painted is replaced, never left out.

* `Exact`: a line of exactly so many cells, without any control character.
* `padCells_exact`: content enters a fixed-width buffer at its width, whatever it is.
* `frameLine_exact`, `titledBorder_exact`: the walls around it stand where they stand.
-/

namespace Barbaro.Tui

/-! ## Characters -/

/-- C0, DEL and C1. -/
def isControl (c : ℕ) : Bool := c < 0x20 || (0x7F ≤ c && c ≤ 0x9F)

/-- Format characters can reorder or hide content; they are never worth a cell. -/
def isForbidden (c : ℕ) : Bool :=
  isControl c || c == 0x200B || c == 0x200C || c == 0x200D || (0x200E ≤ c && c ≤ 0x200F) ||
    (0x202A ≤ c && c ≤ 0x202E) || (0x2060 ≤ c && c ≤ 0x2064) || (0x2066 ≤ c && c ≤ 0x2069) || c == 0xFEFF

def isCombining (c : ℕ) : Bool :=
  (0x0300 ≤ c && c ≤ 0x036F) || (0x1AB0 ≤ c && c ≤ 0x1AFF) || (0x1DC0 ≤ c && c ≤ 0x1DFF) ||
    (0x20D0 ≤ c && c ≤ 0x20FF) || (0xFE20 ≤ c && c ≤ 0xFE2F)

def isWide (c : ℕ) : Bool :=
  (0x1100 ≤ c && c ≤ 0x115F) || (0x2E80 ≤ c && c ≤ 0x303E) || (0x3041 ≤ c && c ≤ 0x33FF) ||
    (0x3400 ≤ c && c ≤ 0x4DBF) || (0x4E00 ≤ c && c ≤ 0x9FFF) || (0xA000 ≤ c && c ≤ 0xA4CF) ||
    (0xAC00 ≤ c && c ≤ 0xD7A3) || (0xF900 ≤ c && c ≤ 0xFAFF) || (0xFE30 ≤ c && c ≤ 0xFE4F) ||
    (0xFF00 ≤ c && c ≤ 0xFF60) || (0xFFE0 ≤ c && c ≤ 0xFFE6) || (0x1F300 ≤ c && c ≤ 0x1FAFF) ||
    (0x20000 ≤ c && c ≤ 0x3FFFD)

/-- Cells one code point occupies: 0 for combining marks, 2 for the wide ranges, 1 for everything else. -/
def charCells (c : ℕ) : ℕ := if isCombining c then 0 else if isWide c then 2 else 1

/-- Replacement for a control, format, or otherwise unmeasurable character. -/
def cellReplacement : ℕ := 0xB7

/-! ## The pipeline -/

def sanitizeCells (text : JsString) : JsString :=
  Utf16.units ((Utf16.codePoints text).map fun c => if isForbidden c then cellReplacement else c)

/-- Measured cell width of already-sanitized text. -/
def measureCells (text : JsString) : ℕ := ((Utf16.codePoints text).map charCells).sum

/-- The characters up to the first that does not fit. -/
def takeCells : ℕ → List ℕ → List ℕ
  | _, [] => []
  | room, c :: cs => if charCells c > room then [] else c :: takeCells (room - charCells c) cs

/-- Clip sanitized text, never splitting a wide character. -/
def clipCells (text : JsString) (maximumCells : ℤ) : JsString :=
  if maximumCells ≤ 0 then [] else Utf16.units (takeCells maximumCells.toNat (Utf16.codePoints text))

/-- `text.repeat(count)` of one unit. -/
def repeatUnit (u : UInt16) (count : ℤ) : Except Failure JsString :=
  if count < 0 then .error (.rangeError s!"Invalid count value: {count}") else .ok (List.replicate count.toNat u)

/-- `" ".repeat(count)` of a fixed count. -/
def blanks (count : ℕ) : JsString := List.replicate count 32

/-- `text.replace(/\s+/gu, " ")` -/
def collapseSpaces : JsString → JsString
  | [] => []
  | u :: us =>
    if isTrimUnit u then
      match collapseSpaces us with
      | [] => [32]
      | v :: vs => if v = 32 then v :: vs else 32 :: v :: vs
    else u :: collapseSpaces us

/-- `text.trimEnd()` -/
def trimEnd (text : JsString) : JsString := (text.reverse.dropWhile isTrimUnit).reverse

/-- Sanitize and flatten prose, then clip it with an ellipsis, at whitespace if possible. -/
def clipWords (text : JsString) (maximumCells : ℤ) : JsString :=
  if maximumCells ≤ 0 then []
  else
    let flat := sanitizeCells (trim (collapseSpaces text))
    if measureCells flat ≤ maximumCells then flat
    else
      let ellipsis := clipCells (js "...") maximumCells
      let available := maximumCells - measureCells ellipsis
      if available ≤ 0 then ellipsis
      else
        let clipped := clipCells flat available
        let remainder := flat.drop clipped.length
        let cutInsideWord := !remainder.isEmpty && !remainder.head?.any isTrimUnit && !clipped.getLast?.any isTrimUnit
        -- the place of the last blank, if there is one
        let before := (clipped.reverse.dropWhile (· ≠ 32)).reverse.dropLast
        let kept := if cutInsideWord && before.length > 0 then trimEnd before else trimEnd clipped
        kept ++ ellipsis

/-- Sanitize, clip, and pad with blanks to exactly so many cells. -/
def padCells (text : JsString) (widthCells : ℤ) : Except Failure JsString := do
  let clipped := clipCells (sanitizeCells text) widthCells
  let fill ← repeatUnit 32 (widthCells - measureCells clipped)
  return clipped ++ fill

/-- Center sanitized text inside exactly so many cells. -/
def centerCells (text : JsString) (widthCells : ℤ) : Except Failure JsString := do
  let clipped := clipCells (sanitizeCells text) widthCells
  let spare := widthCells - measureCells clipped
  let left := spare / 2
  let before ← repeatUnit 32 left
  let after ← repeatUnit 32 (spare - left)
  return before ++ clipped ++ after

/-- `│` -/
def wall : UInt16 := 0x2502

/-- `─` -/
def dash : UInt16 := 0x2500

/-- One interior line between two independently painted walls. -/
def frameLine (interior : JsString) (interiorCells : ℤ) : Except Failure JsString := do
  let padded ← padCells interior interiorCells
  return wall :: padded ++ [wall]

inductive TitleSide
  | left
  | right
  deriving DecidableEq

def titledBorder (leftCorner rightCorner : UInt16) (title : JsString) (widthCells : ℤ) (titleSide : TitleSide) :
    Except Failure JsString := do
  let interior := widthCells - 2
  if title.length = 0 then
    let fill ← repeatUnit dash interior
    return leftCorner :: fill ++ [rightCorner]
  else
    let label := clipCells (sanitizeCells title) (interior - 4)
    let used := measureCells label
    let fill ← repeatUnit dash (interior - used - 3)
    return match titleSide with
      | .left => [leftCorner, dash, 32] ++ (label ++ 32 :: (fill ++ [rightCorner]))
      | .right => leftCorner :: (fill ++ 32 :: (label ++ [32, dash, rightCorner]))

/-- `┌─ Title ────┐` -/
def frameTop (title : JsString) (widthCells : ℤ) : Except Failure JsString :=
  titledBorder 0x250C 0x2510 title widthCells .left

/-- `└─ Position ─┘`: a plain or titled bottom border. -/
def frameBottom (widthCells : ℤ) (title : JsString) : Except Failure JsString :=
  titledBorder 0x2514 0x2518 title widthCells .right

/-! ## What is measured -/

/-- A line of exactly so many cells, without any control character. -/
structure Exact (width : ℕ) (line : JsString) : Prop where
  measure : measureCells line = width
  clean : ∀ c ∈ Utf16.codePoints line, isControl c = false

theorem Exact.nil : Exact 0 [] := ⟨rfl, by simp [Utf16.codePoints]⟩

/-- A text that starts with no half of a pair is measured on its own. -/
theorem Exact.append_cons {m n : ℕ} {s t : JsString} {u : UInt16} (hu : ¬ Utf16.IsLow u) (hs : Exact m s)
    (ht : Exact n (u :: t)) : Exact (m + n) (s ++ u :: t) := by
  have hpoints := Utf16.codePoints_append_cons hu s t
  refine ⟨?_, fun c hc => ?_⟩
  · rw [measureCells, hpoints, List.map_append, List.sum_append]
    exact congrArg₂ (· + ·) hs.measure ht.measure
  · rw [hpoints] at hc
    rcases List.mem_append.1 hc with hc | hc
    · exact hs.clean c hc
    · exact ht.clean c hc

theorem measureCells_cons {u : UInt16} (hu : ¬ Utf16.IsHigh u) (t : JsString) :
    measureCells (u :: t) = charCells u.toNat + measureCells t := by
  rw [measureCells, Utf16.codePoints_cons hu t, List.map_cons, List.sum_cons, measureCells]

theorem Exact.cons {n : ℕ} {u : UInt16} {t : JsString} (hhigh : ¬ Utf16.IsHigh u) (hclean : isControl u.toNat = false)
    (ht : Exact n t) : Exact (charCells u.toNat + n) (u :: t) := by
  refine ⟨?_, fun c hc => ?_⟩
  · rw [measureCells_cons hhigh, ht.measure]
  · rw [Utf16.codePoints_cons hhigh t] at hc
    rcases List.mem_cons.1 hc with rfl | hc
    · exact hclean
    · exact ht.clean c hc

/-- A unit that takes one cell and is no half of a pair. -/
def IsNarrow (u : UInt16) : Prop :=
  ¬ Utf16.IsHigh u ∧ ¬ Utf16.IsLow u ∧ isControl u.toNat = false ∧ charCells u.toNat = 1

instance : DecidablePred IsNarrow := fun _ => inferInstanceAs (Decidable (_ ∧ _))

theorem IsNarrow.cons {u : UInt16} (hu : IsNarrow u) {n : ℕ} {t : JsString} (ht : Exact n t) :
    Exact (n + 1) (u :: t) := by
  have h := ht.cons hu.1 hu.2.2.1
  rwa [hu.2.2.2, Nat.add_comm] at h

theorem IsNarrow.replicate {u : UInt16} (hu : IsNarrow u) (n : ℕ) : Exact n (List.replicate n u) := by
  induction n with
  | zero => exact .nil
  | succ n ih => exact hu.cons ih

/-- Narrow units may follow any text. -/
theorem Exact.append_replicate {m : ℕ} {s : JsString} (hs : Exact m s) {u : UInt16} (hu : IsNarrow u) (n : ℕ) :
    Exact (m + n) (s ++ List.replicate n u) := by
  cases n with
  | zero => rwa [List.replicate_zero, List.append_nil]
  | succ n => exact hs.append_cons hu.2.1 (hu.replicate (n + 1))

theorem Exact.replicate_append {n : ℕ} {t : JsString} (ht : Exact n t) {u : UInt16} (hu : IsNarrow u) (m : ℕ) :
    Exact (m + n) (List.replicate m u ++ t) := by
  induction m with
  | zero => rwa [List.replicate_zero, List.nil_append, Nat.zero_add]
  | succ m ih =>
    rw [Nat.succ_add]
    exact hu.cons ih

theorem narrow_blank : IsNarrow 32 := by decide

theorem narrow_dash : IsNarrow dash := by decide

theorem narrow_wall : IsNarrow wall := by decide

theorem blanks_exact (n : ℕ) : Exact n (blanks n) := narrow_blank.replicate n

theorem repeatUnit_ok {u : UInt16} {count : ℤ} (h : 0 ≤ count) :
    repeatUnit u count = .ok (List.replicate count.toNat u) := by
  rw [repeatUnit, if_neg (by omega)]

/-! ## Sanitized text -/

/-- Replacing characters by others that are no halves of a pair keeps the rest apart. -/
theorem unpaired_sanitized {cs : List ℕ} (h : Unpaired cs) :
    Unpaired (cs.map fun c => if isForbidden c then cellReplacement else c) := by
  have hone : ∀ c, c < 0x110000 → (if isForbidden c then cellReplacement else c) < 0x110000 := by
    intro c hc
    split
    · decide
    · exact hc
  induction cs with
  | nil => trivial
  | cons c cs ih =>
    obtain ⟨hc, htail⟩ := h.tail
    cases cs with
    | nil => exact hone c hc
    | cons d cs =>
      refine ⟨hone c hc, ?_, ih htail⟩
      have hpair := h.2.1
      dsimp only
      split
      · rintro ⟨⟨h1, h2⟩, -⟩
        unfold cellReplacement at h1
        omega
      · split
        · rintro ⟨-, h1, h2⟩
          unfold cellReplacement at h1
          omega
        · exact hpair

theorem codePoints_sanitize (text : JsString) : Utf16.codePoints (sanitizeCells text) =
    (Utf16.codePoints text).map fun c => if isForbidden c then cellReplacement else c :=
  codePoints_units_unpaired (unpaired_sanitized (codePoints_unpaired text))

theorem sanitize_clean (text : JsString) : ∀ c ∈ Utf16.codePoints (sanitizeCells text), isControl c = false := by
  intro c hc
  rw [codePoints_sanitize] at hc
  obtain ⟨d, -, rfl⟩ := List.mem_map.1 hc
  split
  · decide
  · next hd =>
    cases hcontrol : isControl d with
    | false => rfl
    | true => simp [isForbidden, hcontrol] at hd

/-! ## Clipped text -/

theorem takeCells_initial (room : ℕ) (cs : List ℕ) : takeCells room cs <+: cs := by
  induction cs generalizing room with
  | nil => exact List.prefix_rfl
  | cons c cs ih =>
    rw [takeCells]
    split
    · exact List.nil_prefix
    · exact List.cons_prefix_cons.2 ⟨rfl, ih _⟩

theorem takeCells_fits (room : ℕ) (cs : List ℕ) : ((takeCells room cs).map charCells).sum ≤ room := by
  induction cs generalizing room with
  | nil => exact Nat.zero_le _
  | cons c cs ih =>
    rw [takeCells]
    split
    · exact Nat.zero_le _
    · have := ih (room - charCells c)
      rw [List.map_cons, List.sum_cons]
      omega

theorem unpaired_initial {cs ds : List ℕ} (h : Unpaired ds) (hinit : cs <+: ds) : Unpaired cs := by
  induction cs generalizing ds with
  | nil => trivial
  | cons c cs ih =>
    cases ds with
    | nil => simp at hinit
    | cons d ds =>
      obtain ⟨rfl, hrest⟩ := List.cons_prefix_cons.1 hinit
      have htail := ih h.tail.2 hrest
      cases cs with
      | nil => exact h.tail.1
      | cons e cs =>
        cases ds with
        | nil => simp at hrest
        | cons f ds =>
          obtain ⟨rfl, -⟩ := List.cons_prefix_cons.1 hrest
          exact ⟨h.1, h.2.1, htail⟩

theorem codePoints_clip (text : JsString) {maximumCells : ℤ} (h : 0 < maximumCells) :
    Utf16.codePoints (clipCells text maximumCells) = takeCells maximumCells.toNat (Utf16.codePoints text) := by
  rw [clipCells, if_neg (by omega)]
  exact codePoints_units_unpaired (unpaired_initial (codePoints_unpaired text) (takeCells_initial _ _))

/-- **Clipped text fits.** -/
theorem clip_fits (text : JsString) (maximumCells : ℤ) :
    (measureCells (clipCells text maximumCells) : ℤ) ≤ max maximumCells 0 := by
  rcases lt_or_ge 0 maximumCells with hpos | hneg
  · have hfits := takeCells_fits maximumCells.toNat (Utf16.codePoints text)
    rw [measureCells, codePoints_clip text hpos]
    omega
  · rw [clipCells, if_pos hneg]
    exact Int.le_max_right _ _

/-- It has no character that the text has not. -/
theorem clip_exact {text : JsString} (hclean : ∀ c ∈ Utf16.codePoints text, isControl c = false) (maximumCells : ℤ) :
    ∃ n : ℕ, Exact n (clipCells text maximumCells) ∧ (n : ℤ) ≤ max maximumCells 0 := by
  refine ⟨_, ⟨rfl, fun c hc => ?_⟩, clip_fits text maximumCells⟩
  rcases lt_or_ge 0 maximumCells with hpos | hneg
  · rw [codePoints_clip text hpos] at hc
    exact hclean c ((takeCells_initial _ _).subset hc)
  · rw [clipCells, if_pos hneg] at hc
    cases hc

theorem clip_sanitized (text : JsString) (maximumCells : ℤ) :
    ∃ n : ℕ, Exact n (clipCells (sanitizeCells text) maximumCells) ∧ (n : ℤ) ≤ max maximumCells 0 :=
  clip_exact (sanitize_clean text) maximumCells

/-! ## Padded text and its walls -/

/-- A clipped text leaves room for the rest of its buffer. -/
theorem clip_room (text : JsString) (width : ℕ) : ∃ n, n ≤ width ∧
    Exact n (clipCells (sanitizeCells text) width) ∧
      (width : ℤ) - measureCells (clipCells (sanitizeCells text) width) = ((width - n : ℕ) : ℤ) := by
  obtain ⟨n, hexact, hle⟩ := clip_sanitized text width
  refine ⟨n, by omega, hexact, ?_⟩
  rw [hexact.measure]
  omega

theorem repeatUnit_nat (u : UInt16) (n : ℕ) : repeatUnit u n = .ok (List.replicate n u) := by
  rw [repeatUnit_ok (Int.natCast_nonneg n), Int.toNat_natCast]

/-- **Content enters a buffer at its width**, whatever it is. -/
theorem padCells_exact (text : JsString) (width : ℕ) : ∃ line, padCells text width = .ok line ∧ Exact width line := by
  obtain ⟨n, hle, hexact, hroom⟩ := clip_room text width
  have hline := hexact.append_replicate narrow_blank (width - n)
  rw [Nat.add_sub_cancel' hle] at hline
  refine ⟨_, ?_, hline⟩
  rw [padCells, hroom, repeatUnit_nat]
  rfl

theorem centerCells_exact (text : JsString) (width : ℕ) :
    ∃ line, centerCells text width = .ok line ∧ Exact width line := by
  obtain ⟨n, hle, hexact, hroom⟩ := clip_room text width
  have hhalves : ((width - n : ℕ) : ℤ) / 2 = ((width - n) / 2 : ℕ) ∧
      ((width - n : ℕ) : ℤ) - ((width - n) / 2 : ℕ) = ((width - n) - (width - n) / 2 : ℕ) := by omega
  have hline := (hexact.replicate_append narrow_blank ((width - n) / 2)).append_replicate narrow_blank
    ((width - n) - (width - n) / 2)
  rw [show (width - n) / 2 + n + ((width - n) - (width - n) / 2) = width by omega] at hline
  refine ⟨_, ?_, hline⟩
  rw [centerCells, hroom, hhalves.1, hhalves.2, repeatUnit_nat, repeatUnit_nat]
  rfl

/-- **A line between two walls**: they stand at its ends, whatever it holds. -/
theorem frameLine_exact (interior : JsString) (interiorCells : ℕ) :
    ∃ padded, padCells interior interiorCells = .ok padded ∧ Exact interiorCells padded ∧
      frameLine interior interiorCells = .ok (wall :: padded ++ [wall]) ∧
      Exact (interiorCells + 2) (wall :: padded ++ [wall]) := by
  obtain ⟨padded, hpad, hexact⟩ := padCells_exact interior interiorCells
  refine ⟨padded, hpad, hexact, ?_, ?_⟩
  · rw [frameLine, hpad]
    rfl
  · exact (narrow_wall.cons hexact).append_replicate narrow_wall 1

/-- **A border has its width**, whatever its title is. -/
theorem titledBorder_exact {leftCorner rightCorner : UInt16} (hleft : IsNarrow leftCorner)
    (hright : IsNarrow rightCorner) (title : JsString) (width : ℕ) (hwidth : 6 ≤ width) (side : TitleSide) :
    ∃ line, titledBorder leftCorner rightCorner title width side = .ok line ∧ Exact width line := by
  rw [titledBorder]
  by_cases htitle : title.length = 0
  · rw [if_pos htitle, show (width : ℤ) - 2 = ((width - 2 : ℕ) : ℤ) by omega, repeatUnit_nat]
    refine ⟨_, rfl, ?_⟩
    have hline := hleft.cons ((narrow_dash.replicate (width - 2)).append_replicate hright 1)
    rwa [show width - 2 + 1 + 1 = width by omega] at hline
  · obtain ⟨n, hexact, hle⟩ := clip_sanitized title ((width : ℤ) - 2 - 4)
    have hroom : (width : ℤ) - 2 - measureCells (clipCells (sanitizeCells title) ((width : ℤ) - 2 - 4)) - 3 =
        ((width - 2 - n - 3 : ℕ) : ℤ) := by
      rw [hexact.measure]
      omega
    rw [if_neg htitle]
    dsimp only
    rw [hroom, repeatUnit_nat]
    refine ⟨_, rfl, ?_⟩
    cases side with
    | left =>
      have htail := narrow_blank.cons ((narrow_dash.replicate (width - 2 - n - 3)).append_replicate hright 1)
      have hline := hleft.cons (narrow_dash.cons (narrow_blank.cons (hexact.append_cons narrow_blank.2.1 htail)))
      rwa [show n + (width - 2 - n - 3 + 1 + 1) + 1 + 1 + 1 = width by omega] at hline
    | right =>
      have hend : Exact 3 [32, dash, rightCorner] :=
        narrow_blank.cons (narrow_dash.cons (hright.cons .nil))
      have hlabel := narrow_blank.cons (hexact.append_cons narrow_blank.2.1 hend)
      have hline := hleft.cons ((narrow_dash.replicate (width - 2 - n - 3)).append_cons narrow_blank.2.1 hlabel)
      rwa [show width - 2 - n - 3 + (n + 3 + 1) + 1 = width by omega] at hline

end Barbaro.Tui
