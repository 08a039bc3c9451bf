import Barbaro.Core.Patterns

/-!
# What a reader says of its sources

Every projection of the reader says how well it could read what it shows (`ReaderReadState`)
and whether it has seen all of it (`ReaderCoverage`).
-/

namespace Barbaro

inductive ReaderReadState
  | ok
  | degraded
  | refused
  deriving DecidableEq, Repr

inductive CoverageState
  | complete
  | limited
  | refused
  deriving DecidableEq, Repr

structure ReaderCoverage where
  state : CoverageState
  reason : Option String := none
  deriving DecidableEq, Repr

/-- The items that are shown, of a total. -/
structure ReaderCollection (α : Type) where
  shown : ℤ
  total : ℤ
  hidden : ℤ
  items : List α
  readState : ReaderReadState
  coverage : ReaderCoverage

def ReaderReadState.rank : ReaderReadState → ℕ
  | .ok => 0
  | .degraded => 1
  | .refused => 2

def CoverageState.rank : CoverageState → ℕ
  | .complete => 0
  | .limited => 1
  | .refused => 2

/-- What is known of a source that is given from outside. -/
structure SourceInspection where
  trustworthy : Bool
  readState : ReaderReadState
  coverage : ReaderCoverage
  reason : Option String := none
  deriving DecidableEq, Repr

def ReaderCollection.isTrustworthy {α : Type} (c : ReaderCollection α) : Bool :=
  c.readState = .ok && c.coverage.state = .complete && c.hidden = 0

/-- The inspection of a collection whose items are valid. -/
def ReaderCollection.inspect {α : Type} (c : ReaderCollection α) (hidden incomplete : String) : SourceInspection :=
  if c.isTrustworthy then ⟨true, .ok, ⟨.complete, none⟩, none⟩
  else ⟨false, c.readState, if c.coverage.state = .complete then ⟨.limited, some hidden⟩ else c.coverage,
    some incomplete⟩

end Barbaro
