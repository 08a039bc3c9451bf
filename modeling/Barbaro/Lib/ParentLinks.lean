import Mathlib.Data.List.Basic

/-!
# Parent links

Every element has at most one parent. The links may lead anywhere: out of the elements one
looks at, or round in a cycle.

* `OnCycle`: the links lead from an element back to it.
* `Closed`: a set has with an element its parent, if that is one of those inside.
* `Grown`: a closed set without cycles; adding a child to it keeps it so.
-/

namespace ParentLinks

variable {α : Type} {parent : α → Option α} {inside : α → Prop}

/-- So many links up. -/
def up (parent : α → Option α) : ℕ → α → Option α
  | 0, u => some u
  | n + 1, u => (parent u).bind (up parent n)

def OnCycle (parent : α → Option α) (u : α) : Prop := ∃ n, up parent (n + 1) u = some u

theorem up_succ (n : ℕ) (u : α) : up parent (n + 1) u = (up parent n u).bind parent := by
  induction n generalizing u with
  | zero =>
    cases h : parent u with
    | none => simp [up, h]
    | some p => simp [up, h]
  | succ n ih =>
    rw [up]
    cases h : parent u with
    | none => simp [up, h]
    | some p => simpa [up, h] using ih p

/-- The parent of an element on a cycle is on it. -/
theorem OnCycle.exists_parent {u : α} (h : OnCycle parent u) : ∃ p, parent u = some p ∧ OnCycle parent p := by
  obtain ⟨n, hn⟩ := h
  rw [up] at hn
  obtain ⟨p, hp, hup⟩ := Option.bind_eq_some_iff.1 hn
  refine ⟨p, hp, n, ?_⟩
  rw [up_succ, hup]
  exact hp

theorem not_onCycle_of_parent {u p : α} (hp : parent u = some p) (h : ¬ OnCycle parent p) : ¬ OnCycle parent u := by
  intro hu
  obtain ⟨q, hq, hcycle⟩ := hu.exists_parent
  rw [hp] at hq
  cases hq
  exact h hcycle

theorem not_onCycle_of_none {u : α} (h : parent u = none) : ¬ OnCycle parent u := by
  intro hu
  obtain ⟨p, hp, -⟩ := hu.exists_parent
  rw [h] at hp
  cases hp

/-- The set has the parents of its elements that are inside. -/
def Closed (parent : α → Option α) (inside : α → Prop) (A : List α) : Prop :=
  ∀ u ∈ A, ∀ p, parent u = some p → inside p → p ∈ A

/-- A set with a given leaf that has grown along the links. -/
structure Grown (parent : α → Option α) (inside : α → Prop) (leaf : α) (A : List α) : Prop where
  leaf : leaf ∈ A
  closed : Closed parent inside A
  acyclic : ∀ u ∈ A, ¬ OnCycle parent u

/-- A set stays grown when children of its elements are added. -/
theorem Grown.extend {leaf : α} {A B : List α} (h : Grown parent inside leaf A) (hsub : ∀ u ∈ A, u ∈ B)
    (hnew : ∀ u ∈ B, u ∈ A ∨ ∃ p ∈ A, parent u = some p) : Grown parent inside leaf B where
  leaf := hsub _ h.leaf
  closed u hu p hp hin := by
    rcases hnew u hu with hu | ⟨q, hq, hup⟩
    · exact hsub p (h.closed u hu p hp hin)
    · rw [hp] at hup
      cases hup
      exact hsub p hq
  acyclic u hu := by
    rcases hnew u hu with hu | ⟨q, hq, hup⟩
    · exact h.acyclic u hu
    · exact not_onCycle_of_parent hup (h.acyclic q hq)

end ParentLinks
