import Mathlib.Tactic.Common
import Mathlib.Order.Basic

/-!
# Computations that may fail

Inversion of a successful `Except` computation: what succeeded was each of its
steps, in order. `bind_ok` peels one step off; `guard_ok` and `guard_else` read a
check that throws.
-/

namespace Outcome

universe u v

variable {ε : Type u} {α β : Type v}

/-- A sequence of two computations succeeds when both do. -/
@[simp] theorem bind_ok {x : Except ε α} {f : α → Except ε β} {b : β} :
    (x >>= f) = .ok b ↔ ∃ a, x = .ok a ∧ f a = .ok b := by
  cases x with
  | error e => simp [bind, Except.bind]
  | ok a => simp [bind, Except.bind]

/-- A step that returns nothing leaves nothing to name. -/
@[simp] theorem exists_unit {p : PUnit.{u + 1} → Prop} : (∃ a, p a) ↔ p ⟨⟩ :=
  ⟨fun ⟨_, h⟩ => h, fun h => ⟨_, h⟩⟩

@[simp] theorem pure_ok {a b : α} : (pure a : Except ε α) = .ok b ↔ a = b := by
  simp [pure, Except.pure]

theorem map_ok {x : Except ε α} {f : α → β} {b : β} : x.map f = .ok b ↔ ∃ a, x = .ok a ∧ f a = b := by
  cases x with
  | error e => simp [Except.map]
  | ok a => simp [Except.map]

/-- A failure that no step has is not one of the whole. -/
theorem bind_ne_error {x : Except ε α} {f : α → Except ε β} {e : ε} (hx : x ≠ .error e)
    (hf : ∀ a, f a ≠ .error e) : (x >>= f) ≠ .error e := by
  cases x with
  | error e' => exact fun h => hx (congrArg Except.error (Except.error.inj h))
  | ok a => exact hf a

theorem ok_bind (a : α) (f : α → Except ε β) : (Except.ok a >>= f) = f a := rfl

theorem toOption_some {x : Except ε α} {a : α} : x.toOption = some a ↔ x = .ok a := by
  cases x with
  | error e => simp [Except.toOption]
  | ok b => simp [Except.toOption]

/-- What a computation that fails is refused with. -/
def refusal : Except ε α → Option ε
  | .error e => some e
  | .ok _ => none

/-- A check that throws when `c` holds was passed: `c` is false. -/
@[simp] theorem guard_ok {c : Prop} [Decidable c] {e : ε} {x : Except ε α} {b : α} :
    (if c then .error e else x) = .ok b ↔ ¬ c ∧ x = .ok b := by
  by_cases h : c <;> simp [h]

/-- A check that throws unless `c` holds was passed: `c` is true. -/
@[simp] theorem guard_else {c : Prop} [Decidable c] {e : ε} {x : Except ε α} {b : α} :
    (if c then x else .error e) = .ok b ↔ c ∧ x = .ok b := by
  by_cases h : c <;> simp [h]

/-- What one step preserves holds after a whole fold, counted by its steps. -/
theorem foldlM_keeps {P : ℕ → β → Prop} {γ : Type v} {f : β → γ → Except ε β} {l : List γ}
    (hstep : ∀ n b a b', a ∈ l → P n b → f b a = .ok b' → P (n + 1) b') {n : ℕ} {b b' : β} (hb : P n b)
    (h : l.foldlM f b = .ok b') : P (n + l.length) b' := by
  induction l generalizing n b with
  | nil =>
    obtain rfl : b = b' := by simpa using h
    exact hb
  | cons a l ih =>
    rw [List.foldlM_cons, bind_ok] at h
    obtain ⟨c, hc, h⟩ := h
    have hrest := ih (fun n b a' b' ha' => hstep n b a' b' (List.mem_cons_of_mem _ ha'))
      (hstep n b a c List.mem_cons_self hb hc) h
    rwa [Nat.add_right_comm] at hrest

end Outcome
