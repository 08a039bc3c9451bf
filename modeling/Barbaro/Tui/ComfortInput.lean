import Barbaro.Core.Host
import Barbaro.Lib.Marker

/-!
# The raw input of the comfort card

`ComfortInputParser` is fed the chunks the terminal delivers and turns them into commands,
editor text and pastes. Its state is the text not decoded yet, the mode and the paste
collected so far; every call returns the events it emits, in their order.

* `drain_eq`: one round of the loop, and the rest of it.
* `drainRound_shorter`: every round that goes on takes something off the buffer.
-/

namespace Barbaro.Tui

def escape : UInt16 := 0x1B

def bracketedPasteStart : JsString := js "\x1b[200~"
def bracketedPasteEnd : JsString := js "\x1b[201~"

inductive ComfortCommand
  | quit | refresh | moveUp | moveDown | exposureLeft | exposureRight | open | back | help | detailNext
  | detailPrevious | copy | create | lifecycle | filter | sort | toggleMotion | submit | erase
  deriving DecidableEq

/-- `ComfortInputEvents` -/
inductive ComfortEvent
  | command (command : ComfortCommand)
  | paste (payload : JsString)
  | text (text : JsString)
  deriving DecidableEq

def directCommands : List (JsString × ComfortCommand) :=
  [(js "q", .quit), (js "\x03", .quit), (js "r", .refresh), (js "j", .moveDown), (js "k", .moveUp),
    (js "h", .exposureLeft), (js "l", .exposureRight), (js "\r", .open), (js "\n", .open), (js "?", .help),
    (js "\t", .detailNext), (js "c", .copy), (js "n", .create), (js "x", .lifecycle), (js "/", .filter),
    (js "s", .sort), (js " ", .toggleMotion)]

def escapeCommands : List (JsString × ComfortCommand) :=
  [(js "\x1b[Z", .detailPrevious), (js "\x1b[A", .moveUp), (js "\x1b[B", .moveDown), (js "\x1b[C", .exposureRight),
    (js "\x1b[D", .exposureLeft), (js "\x1bOA", .moveUp), (js "\x1bOB", .moveDown), (js "\x1bOC", .exposureRight),
    (js "\x1bOD", .exposureLeft)]

structure ComfortInputParser where
  buffer : JsString := []
  editor : Bool := false
  pasting : Bool := false
  pasted : JsString := []
  /-- The escape timer is armed. -/
  timer : Bool := false
  deriving DecidableEq

namespace ComfortInputParser

def setEditorMode (s : ComfortInputParser) (enabled : Bool) : ComfortInputParser := { s with editor := enabled }

/-- `#flushEditorText` -/
def flushEditorText (text : JsString) : List ComfortEvent := if text = [] then [] else [.text text]

/-- `#drainEditorText`: the events, and what is left of the buffer. -/
def drainEditorText : JsString → JsString → List ComfortEvent × JsString
  | text, [] => (flushEditorText text, [])
  | text, u :: us =>
    if u = escape then (flushEditorText text, u :: us)
    else if u = 0x13 then emit text .submit (drainEditorText [] us)
    else if u = 0x7F ∨ u = 0x08 then emit text .erase (drainEditorText [] us)
    else if u = 0x03 then emit text .quit (drainEditorText [] us)
    else if u = 0x09 then emit text .detailNext (drainEditorText [] us)
    else if u = 0x0D ∨ u = 0x0A then drainEditorText text us
    else drainEditorText (text ++ [u]) us
where
  emit (text : JsString) (command : ComfortCommand) (rest : List ComfortEvent × JsString) :
      List ComfortEvent × JsString :=
    (flushEditorText text ++ .command command :: rest.1, rest.2)

inductive EscapeMatch
  | command (command : ComfortCommand)
  | incomplete
  | unknown
  deriving DecidableEq

/-- The loop of `#matchEscape` over the known sequences. -/
def matchSequences (buffer : JsString) : List (JsString × ComfortCommand) → EscapeMatch
  | [] => if buffer.isPrefixOf bracketedPasteStart then .incomplete else .unknown
  | entry :: entries =>
    if buffer = entry.1 then .command entry.2
    else if buffer.isPrefixOf entry.1 then .incomplete
    else matchSequences buffer entries

/-- `#matchEscape` -/
def matchEscape (buffer : JsString) : EscapeMatch := matchSequences buffer escapeCommands

/-- What one round of the loop of `#drain` does: return, or go on. -/
inductive DrainRound
  | done (events : List ComfortEvent) (next : ComfortInputParser)
  | again (events : List ComfortEvent) (next : ComfortInputParser)

def drainRound (s : ComfortInputParser) : DrainRound :=
  if s.pasting then
    match Marker.indexOf bracketedPasteEnd s.buffer with
    | none => .done [] { s with pasted := s.pasted ++ s.buffer, buffer := [] }
    | some last =>
      .again [.paste (s.pasted ++ s.buffer.take last)]
        { s with buffer := s.buffer.drop (last + bracketedPasteEnd.length), pasting := false, pasted := [] }
  else if s.buffer.length = 0 then .done [] s
  else if bracketedPasteStart.isPrefixOf s.buffer then
    .again [] { s with buffer := s.buffer.drop bracketedPasteStart.length, pasting := true }
  else if [escape].isPrefixOf s.buffer then
    match matchEscape s.buffer with
    | .incomplete => .done [] { s with timer := true }
    | .command command => .again [.command command] { s with buffer := [] }
    -- `#resolveEscape`
    | .unknown => .again (if s.buffer = [escape] then [.command .back] else []) { s with buffer := [] }
  else if s.editor then
    .again (drainEditorText [] s.buffer).1 { s with buffer := (drainEditorText [] s.buffer).2 }
  else
    match directCommands.lookup s.buffer with
    | some command => .done [.command command] { s with buffer := [] }
    | none => .done [] { s with buffer := [] }

/-- The loop of `#drain`, for at most so many rounds. -/
def drainRounds : ℕ → ComfortInputParser → List ComfortEvent × ComfortInputParser
  | 0, s => ([], s)
  | n + 1, s =>
    match drainRound s with
    | .done events s' => (events, s')
    | .again events s' => (events ++ (drainRounds n s').1, (drainRounds n s').2)

/-- `#drain` -/
def drain (s : ComfortInputParser) : List ComfortEvent × ComfortInputParser := drainRounds (s.buffer.length + 1) s

/-- `feed`, of a chunk that was decoded: the timer is cancelled and the text joins the buffer. -/
def feedText (s : ComfortInputParser) (text : JsString) : List ComfortEvent × ComfortInputParser :=
  drain { s with timer := false, buffer := s.buffer ++ text }

/-- `feed`, of a buffer. -/
def feed (s : ComfortInputParser) (chunk : Bytes) : List ComfortEvent × ComfortInputParser :=
  feedText s (bytesToString chunk)

/-- The grace time of an escape is over. -/
def fireTimer (s : ComfortInputParser) : List ComfortEvent × ComfortInputParser :=
  if s.timer then
    (if s.buffer = [escape] then [.command .back] else [], { s with timer := false, buffer := [] })
  else ([], s)

/-- Several chunks, with no timer in between. -/
def feedAll (s : ComfortInputParser) : List Bytes → List ComfortEvent × ComfortInputParser
  | [] => ([], s)
  | chunk :: chunks =>
    let r := feed s chunk
    (r.1 ++ (feedAll r.2 chunks).1, (feedAll r.2 chunks).2)

/-! ## The loop ends -/

theorem drainEditorText_length (text buffer : JsString) :
    (drainEditorText text buffer).2.length ≤ buffer.length := by
  induction buffer generalizing text with
  | nil => simp [drainEditorText]
  | cons u us ih =>
    rw [drainEditorText]
    have hnil := ih []
    have htext := ih text
    have hlong := ih (text ++ [u])
    split_ifs <;> simp only [drainEditorText.emit, List.length_cons] <;> omega

/-- Editor text takes what stands before the next escape. -/
theorem drainEditorText_shorter {u : UInt16} {us : JsString} (hu : u ≠ escape) :
    (drainEditorText [] (u :: us)).2.length < (u :: us).length := by
  have hnil := drainEditorText_length [] us
  have hlong := drainEditorText_length ([] ++ [u]) us
  rw [drainEditorText, if_neg hu]
  split_ifs <;> simp only [drainEditorText.emit, List.length_cons] <;> omega

theorem drainRound_shorter {s s' : ComfortInputParser} {events : List ComfortEvent}
    (h : drainRound s = .again events s') : s'.buffer.length < s.buffer.length := by
  unfold drainRound at h
  split at h
  · split at h
    · cases h
    · rename_i last hlast
      cases h
      have hpos : 0 < bracketedPasteEnd.length := by decide
      have hin : ¬ s.buffer = [] := by
        intro hnil
        rw [hnil, Marker.indexOf, if_neg (show bracketedPasteEnd ≠ [] by decide)] at hlast
        cases hlast
      have := List.length_pos_iff.2 hin
      simp only [List.length_drop]
      omega
  · split at h
    · cases h
    · rename_i hempty
      split at h
      · cases h
        have hpos : 0 < bracketedPasteStart.length := by decide
        simp only [List.length_drop]
        omega
      · split at h
        · split at h
          · cases h
          · cases h
            exact Nat.pos_of_ne_zero hempty
          · cases h
            exact Nat.pos_of_ne_zero hempty
        · rename_i hescape
          split at h
          · cases h
            cases hb : s.buffer with
            | nil => simp [hb] at hempty
            | cons u us =>
              refine drainEditorText_shorter fun hu => hescape ?_
              simp [hb, hu]
          · split at h <;> cases h

theorem drainRounds_eq {n : ℕ} {s : ComfortInputParser} (h : s.buffer.length < n) : drainRounds n s = drain s := by
  induction n using Nat.strongRecOn generalizing s with
  | ind n ih =>
    obtain ⟨m, rfl⟩ : ∃ m, n = m + 1 := ⟨n - 1, by omega⟩
    rw [drain, drainRounds, drainRounds]
    cases hround : drainRound s with
    | done events s' => rfl
    | again events s' =>
      have hlt := drainRound_shorter hround
      simp only
      rw [ih m (by omega) (by omega)]
      rcases Nat.lt_or_ge s.buffer.length m with hm | hm
      · rw [ih s.buffer.length (by omega) hlt]
      · obtain rfl : m = s.buffer.length := by omega
        rw [ih _ (by omega) hlt]

/-- **One round of the loop**, and the rest of it. -/
theorem drain_eq (s : ComfortInputParser) : drain s = match drainRound s with
    | .done events s' => (events, s')
    | .again events s' => (events ++ (drain s').1, (drain s').2) := by
  rw [drain, drainRounds]
  cases h : drainRound s with
  | done events s' => rfl
  | again events s' =>
    simp only
    rw [drainRounds_eq (drainRound_shorter h)]

end ComfortInputParser

end Barbaro.Tui
