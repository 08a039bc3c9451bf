import Barbaro.Tui.Cells

/-!
# The card ladder

Every tier is one fixed card centered in the terminal; a larger terminal adds matte.

* `chooseCard_fits`: the card that is chosen fits the terminal.
* `composeMatte_exact`: lines of the card's size are composed to exactly the terminal's.
-/

namespace Barbaro.Tui

inductive ComfortTier
  | comfort
  | sub
  | text
  | floor
  deriving DecidableEq, Repr

structure CardGeometry where
  tier : ComfortTier
  width : ℕ
  height : ℕ
  deriving DecidableEq, Repr

structure ComfortAnatomy where
  topStripRows : ℕ
  frameRows : ℕ
  benchRows : ℕ
  /-- Interior cells between the frame walls. -/
  interiorCells : ℕ
  deriving DecidableEq, Repr

def comfortCard : CardGeometry := { tier := .comfort, width := 64, height := 28 }
def subCard : CardGeometry := { tier := .sub, width := 56, height := 22 }
def textCard : CardGeometry := { tier := .text, width := 40, height := 12 }
def floorCard : CardGeometry := { tier := .floor, width := 12, height := 6 }

def comfortAnatomy : ComfortAnatomy := { topStripRows := 2, frameRows := 16, benchRows := 6, interiorCells := 62 }
def subAnatomy : ComfortAnatomy := { topStripRows := 2, frameRows := 12, benchRows := 4, interiorCells := 54 }

/-- The first tier of the ladder whose minimums both hold; none below the floor. -/
def chooseCard (width height : ℕ) : Option CardGeometry :=
  [comfortCard, subCard, textCard, floorCard].find? fun card => width ≥ card.width ∧ height ≥ card.height

/-- Spare space splits left/top-heavy-last. -/
def matteOffsets (terminalWidth terminalHeight : ℕ) (card : CardGeometry) : ℤ × ℤ :=
  (((terminalWidth : ℤ) - card.width) / 2, ((terminalHeight : ℤ) - card.height) / 2)

/-- One row of the terminal: matte above and below the card, and the card's line in it. -/
def matteRow (cardLines : List JsString) (card : CardGeometry) (terminalWidth terminalHeight row : ℕ) :
    Except Failure JsString := do
  let (left, top) := matteOffsets terminalWidth terminalHeight card
  let cardRow := (row : ℤ) - top
  if cardRow < 0 ∨ cardRow ≥ card.height then repeatUnit 32 terminalWidth
  else
    let indent ← repeatUnit 32 left
    let line := indent ++ cardLines.getD cardRow.toNat []
    let fill ← repeatUnit 32 (terminalWidth - measureCells line)
    return line ++ fill

/-- One complete terminal frame: the card centered in matte. -/
def composeMatte (cardLines : List JsString) (card : CardGeometry) (terminalWidth terminalHeight : ℕ) :
    Except Failure (List JsString) :=
  if cardLines.length ≠ card.height then .error (.rangeError "card lines do not match the card height")
  else if cardLines.any fun line => measureCells line ≠ card.width then
    .error (.rangeError "card line does not measure the card width")
  else (List.range terminalHeight).mapM (matteRow cardLines card terminalWidth terminalHeight)

/-! ## What is composed -/

/-- Lines of exactly this size. -/
structure ExactLines (width height : ℕ) (lines : List JsString) : Prop where
  height : lines.length = height
  width : ∀ line ∈ lines, Exact width line

theorem chooseCard_fits {width height : ℕ} {card : CardGeometry} (h : chooseCard width height = some card) :
    card.width ≤ width ∧ card.height ≤ height := by
  have hfits := List.find?_some h
  simpa using hfits

/-- Rows that are all made are as many as they were asked for. -/
theorem mapM_exact {α : Type} (f : α → Except Failure JsString) {width : ℕ} (rows : List α)
    (h : ∀ row ∈ rows, ∃ line, f row = .ok line ∧ Exact width line) :
    ∃ lines, rows.mapM f = .ok lines ∧ ExactLines width rows.length lines := by
  induction rows with
  | nil => exact ⟨[], rfl, rfl, fun _ h => nomatch h⟩
  | cons row rows ih =>
    obtain ⟨line, hline, hexact⟩ := h row List.mem_cons_self
    obtain ⟨lines, hlines, hlength, hall⟩ := ih fun r hr => h r (List.mem_cons_of_mem _ hr)
    refine ⟨line :: lines, ?_, by rw [List.length_cons, hlength, List.length_cons], ?_⟩
    · rw [List.mapM_cons, hline, hlines]
      rfl
    · intro l hl
      rcases List.mem_cons.1 hl with rfl | hl
      · exact hexact
      · exact hall l hl

theorem matteRow_exact {cardLines : List JsString} {card : CardGeometry} {terminalWidth : ℕ}
    (hlines : ExactLines card.width card.height cardLines) (hwidth : card.width ≤ terminalWidth)
    (terminalHeight row : ℕ) :
    ∃ line, matteRow cardLines card terminalWidth terminalHeight row = .ok line ∧ Exact terminalWidth line := by
  rw [matteRow]
  dsimp only [matteOffsets]
  split
  · exact ⟨_, repeatUnit_nat 32 terminalWidth, blanks_exact terminalWidth⟩
  · next hinside =>
    have hrow : ((row : ℤ) - ((terminalHeight : ℤ) - card.height) / 2).toNat < cardLines.length := by
      rw [hlines.height]
      omega
    have hcard := hlines.width _ (List.getElem_mem hrow)
    have hleft : ((terminalWidth : ℤ) - card.width) / 2 = (((terminalWidth - card.width) / 2 : ℕ) : ℤ) := by omega
    have hline := hcard.replicate_append narrow_blank ((terminalWidth - card.width) / 2)
    have hfull := hline.append_replicate narrow_blank
      (terminalWidth - ((terminalWidth - card.width) / 2 + card.width))
    rw [Nat.add_sub_cancel' (by omega)] at hfull
    have hget : cardLines.getD ((row : ℤ) - ((terminalHeight : ℤ) - card.height) / 2).toNat [] =
        cardLines[((row : ℤ) - ((terminalHeight : ℤ) - card.height) / 2).toNat] := by
      rw [List.getD, List.getElem?_eq_getElem hrow, Option.getD_some]
    refine ⟨_, ?_, hfull⟩
    rw [hleft, repeatUnit_nat, Outcome.ok_bind, hget, hline.measure,
      show (terminalWidth : ℤ) - ((terminalWidth - card.width) / 2 + card.width : ℕ) =
        ((terminalWidth - ((terminalWidth - card.width) / 2 + card.width) : ℕ) : ℤ) by omega, repeatUnit_nat]
    rfl

/-- **The terminal is filled exactly**: composing a card's lines does not fail. -/
theorem composeMatte_exact {cardLines : List JsString} {card : CardGeometry} {terminalWidth : ℕ}
    (hlines : ExactLines card.width card.height cardLines) (hwidth : card.width ≤ terminalWidth)
    (terminalHeight : ℕ) :
    ∃ lines, composeMatte cardLines card terminalWidth terminalHeight = .ok lines ∧
      ExactLines terminalWidth terminalHeight lines := by
  have hall : cardLines.any (fun line => decide (measureCells line ≠ card.width)) = false := by
    rw [List.any_eq_false]
    intro line hline
    simpa using (hlines.width line hline).measure
  rw [composeMatte, if_neg (not_not.2 hlines.height), hall, if_neg (by decide)]
  have hrows := mapM_exact _ (List.range terminalHeight)
    (fun row _ => matteRow_exact hlines hwidth terminalHeight row)
  rwa [List.length_range] at hrows

end Barbaro.Tui
