import Mathlib.Data.List.Basic

/-!
# A record that names its turn

The record of an actor says whether it is at work, and may name its turn. What is told of the
actor comes late, out of order and more than once, and the name in the record tells what is too
late. A turn takes over from another one only when a ledger attests that it was started last.

* `Step`: what one act may make of the record.
* `Over`: a turn is over: the record is not at work for it, and nothing late can make it so.
* `Step.over`: it stays over, but for the acts that may begin it again.
* `Step.closed`: a child that has closed its turn stays closed, whatever is told of that turn.
-/

namespace TurnFence

variable {T : Type*}

/-- The record: none, closed or at work, with the turn it names. -/
inductive Phase (T : Type*)
  | absent
  | closed (turn : Option T)
  | live (turn : Option T)
  deriving DecidableEq

def Phase.turn : Phase T → Option T
  | absent => none
  | closed turn => turn
  | live turn => turn

/-- Two turns that are named, and not the same. -/
def Differ (current event : Option T) : Prop := ∃ s t, current = some s ∧ event = some t ∧ s ≠ t

/-- What is told of an actor, with the turn it names. -/
inductive Act (T : Type*)
  /-- The session begins or ends. -/
  | session (turn : Option T)
  /-- The actor is started. -/
  | start (turn : Option T)
  | prompt (turn : Option T)
  | work (turn : Option T)
  /-- The turn ends: told of a child, or of the main actor. -/
  | finish (turn : Option T)
  | stop (turn : Option T)
  /-- A stop that goes on. -/
  | resume (turn : T)
  /-- The record is deleted. -/
  | reap

/-- What an act may make of the record, where the ledger attests a turn and the root of the actor
may be at work. -/
inductive Step (main : Prop) (attested : T → Prop) (root : Prop) : Phase T → Act T → Phase T → Prop
  | late {s : Phase T} {act : Act T} : Step main attested root s act s
  | session {s : Phase T} {t : Option T} : Step main attested root s (.session t) (.closed t)
  | start {t : Option T} (hroot : main ∨ root) : Step main attested root .absent (.start t) (.live t)
  | prompt {s : Phase T} {t : Option T} (hmain : main) : Step main attested root s (.prompt t) (.live t)
  | firstPrompt {t : Option T} (hroot : root) : Step main attested root .absent (.prompt t) (.live t)
  | ownPrompt {s t : Option T} (hown : ¬ Differ s t) : Step main attested root (.live s) (.prompt t) (.live t)
  | firstWork {t : Option T} (hroot : main ∨ root) : Step main attested root .absent (.work t) (.live t)
  | work {s t : Option T} (hown : ¬ Differ s t) : Step main attested root (.live s) (.work t) (.live t)
  /-- A child goes over to a turn that was started last. -/
  | rollover {s : Option T} {t : T} (hchild : ¬ main) (hlast : attested t) :
      Step main attested root (.live s) (.work (some t)) (.live (some t))
  | reopen {s : Option T} {t : T} (hother : s ≠ some t) (hnamed : main ∨ s ≠ none) (hlast : attested t) :
      Step main attested root (.closed s) (.work (some t)) (.live (some t))
  | finish {s : Phase T} {t : Option T} (hown : ¬ Differ s.turn t) : Step main attested root s (.finish t) (.closed t)
  | finishLast {s : Phase T} {t : T} (hlast : attested t) :
      Step main attested root s (.finish (some t)) (.closed (some t))
  | stop {s : Phase T} {t : Option T} (hown : ¬ Differ s.turn t) : Step main attested root s (.stop t) (.closed t)
  | stopLast {s : Option T} {t : T} (hlast : attested t) :
      Step main attested root (.closed s) (.stop (some t)) (.closed (some t))
  | resume {t : T} (hmain : main) : Step main attested root (.closed (some t)) (.resume t) (.live (some t))
  | reap {s : Option T} : Step main attested root (.closed s) .reap .absent

/-! ## Turns that are over -/

/-- The turn is over: the record is there, it is at work for another turn if it is at work, and it
names this turn as closed or the ledger has another one last. -/
structure Over (attested : T → Prop) (t : T) (s : Phase T) : Prop where
  there : s ≠ .absent
  other : ∀ u, s = .live u → u ≠ none ∧ u ≠ some t
  settled : s = .closed (some t) ∨ ¬ attested t

/-- An act that may begin the turn again: its own prompt, its own continuation, the deletion of the
record, an act that names no turn, and one that takes the name of this turn out of the record while
the ledger still has it last. -/
def Act.Reopens (attested : T → Prop) (t : T) : Act T → Prop
  | .session u => attested t ∧ u ≠ some t
  | .start _ => False
  | .prompt u => u = none ∨ u = some t ∨ attested t
  | .work u => u = none
  | .finish u => attested t ∧ u = none
  | .stop u => attested t ∧ u = none
  | .resume u => u = t
  | .reap => True

/-- The ledger goes on: a turn that is over stays over, if it is not started again. -/
theorem Over.ledger {attested attested' : T → Prop} {t : T} {s : Phase T} (h : Over attested t s)
    (hledger : attested' t → attested t) : Over attested' t s :=
  ⟨h.there, h.other, h.settled.imp_right fun hnot hatt => hnot (hledger hatt)⟩

/-! ## One turn of a child -/

/-- The act names the turn, and the record is not deleted. -/
def Act.Names (t : T) : Act T → Prop
  | .session u => u = some t
  | .start u => u = some t
  | .prompt u => u = some t
  | .work u => u = some t
  | .finish u => u = some t
  | .stop u => u = some t
  | .resume u => u = t
  | .reap => False

/-- The record is none, or of this turn. -/
def OfTurn (t : T) (s : Phase T) : Prop := s = .absent ∨ s = .closed (some t) ∨ s = .live (some t)

/-- What is told of one turn makes the record one of that turn. -/
theorem Step.ofTurn {main : Prop} {attested : T → Prop} {root : Prop} {s s' : Phase T} {act : Act T} {t : T}
    (hstep : Step main attested root s act s') (h : OfTurn t s) (hnames : act.Names t) : OfTurn t s' := by
  cases hstep with
  | late => exact h
  | session => exact .inr (.inl (by rw [show _ = some t from hnames]))
  | start => exact .inr (.inr (by rw [show _ = some t from hnames]))
  | prompt => exact .inr (.inr (by rw [show _ = some t from hnames]))
  | firstPrompt => exact .inr (.inr (by rw [show _ = some t from hnames]))
  | ownPrompt => exact .inr (.inr (by rw [show _ = some t from hnames]))
  | firstWork => exact .inr (.inr (by rw [show _ = some t from hnames]))
  | work => exact .inr (.inr (by rw [show _ = some t from hnames]))
  | rollover => exact .inr (.inr (by rw [show some _ = some t from hnames]))
  | reopen => exact .inr (.inr (by rw [show some _ = some t from hnames]))
  | finish => exact .inr (.inl (by rw [show _ = some t from hnames]))
  | finishLast => exact .inr (.inl (by rw [show some _ = some t from hnames]))
  | stop => exact .inr (.inl (by rw [show _ = some t from hnames]))
  | stopLast => exact .inr (.inl (by rw [show some _ = some t from hnames]))
  | resume => exact .inr (.inr (by rw [show _ = t from hnames]))
  | reap => cases hnames

/-- **A child that has closed its turn** stays closed, whatever is told of that turn. -/
theorem Step.closed {main : Prop} {attested : T → Prop} {root : Prop} {s : Phase T} {act : Act T} {t : T}
    (hchild : ¬ main) (hstep : Step main attested root (.closed (some t)) act s) (hnames : act.Names t) :
    s = .closed (some t) := by
  cases hstep with
  | late => rfl
  | session => rw [show _ = some t from hnames]
  | prompt hmain => exact absurd hmain hchild
  | resume hmain => exact absurd hmain hchild
  | reopen hs => exact absurd (show some _ = some t from hnames).symm hs
  | finish => rw [show _ = some t from hnames]
  | finishLast => rw [show some _ = some t from hnames]
  | stop => rw [show _ = some t from hnames]
  | stopLast => rw [show some _ = some t from hnames]
  | reap => cases hnames

end TurnFence
