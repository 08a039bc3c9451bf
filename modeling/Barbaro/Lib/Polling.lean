import Barbaro.Lib.Loop
import Mathlib.Algebra.Order.Archimedean.Basic

/-!
# Loops that poll

A polling loop looks at the world once a round, and each look comes at a time of its own. The
looks are a sequence that the loop does not choose, so what it does is said for every sequence.

* `after_invariant`: what every round keeps holds before each look.
* `reaches`: a clock that advances by what was waited reaches the deadline, or the loop ends.
* `ends`: a loop without patience from the deadline on comes to an end.
-/

namespace Polling

open Loop (Round)

variable {σ ρ π : Type} {round : σ → π → Round σ ρ} {start : σ} {polls : ℕ → π}

/-- Where the loop is after so many looks. -/
def after (round : σ → π → Round σ ρ) (start : σ) (polls : ℕ → π) : ℕ → Round σ ρ
  | 0 => .next start
  | n + 1 =>
    match after round start polls n with
    | .next s => round s (polls n)
    | .done r => .done r

/-- The look with this number is the last one, and gives the result. -/
def EndsAt (round : σ → π → Round σ ρ) (start : σ) (polls : ℕ → π) (n : ℕ) (r : ρ) : Prop :=
  ∃ s, after round start polls n = .next s ∧ round s (polls n) = .done r

theorem after_succ {n : ℕ} {s : σ} (h : after round start polls n = .next s) :
    after round start polls (n + 1) = round s (polls n) := by
  rw [after, h]

/-- The loop goes on after a look only if it went on before it. -/
theorem after_next {n : ℕ} {s' : σ} (h : after round start polls (n + 1) = .next s') :
    ∃ s, after round start polls n = .next s ∧ round s (polls n) = .next s' := by
  rw [after] at h
  split at h
  · next s hs => exact ⟨s, hs, h⟩
  · cases h

/-- Before the last look the loop went on. -/
theorem after_le {n : ℕ} {s : σ} (h : after round start polls n = .next s) {i : ℕ} (hi : i ≤ n) :
    ∃ t, after round start polls i = .next t := by
  induction n generalizing s with
  | zero =>
    rw [Nat.le_zero.1 hi]
    exact ⟨s, h⟩
  | succ n ih =>
    rcases Nat.of_le_succ hi with hle | rfl
    · obtain ⟨t, ht, -⟩ := after_next h
      exact ih ht hle
    · exact ⟨s, h⟩

/-- What a look before the last one left. -/
theorem EndsAt.goes_on {n : ℕ} {r : ρ} (h : EndsAt round start polls n r) {i : ℕ} (hi : i < n) :
    ∃ s s', after round start polls i = .next s ∧ round s (polls i) = .next s' := by
  obtain ⟨s, hs, -⟩ := h
  obtain ⟨s', hs'⟩ := after_le hs (Nat.succ_le_of_lt hi)
  obtain ⟨t, ht, hround⟩ := after_next hs'
  exact ⟨t, s', ht, hround⟩

/-- **Invariants** hold before each look. -/
theorem after_invariant {I : ℕ → σ → Prop} (hstart : I 0 start)
    (hnext : ∀ n s s', I n s → round s (polls n) = .next s' → I (n + 1) s') {n : ℕ} {s : σ}
    (h : after round start polls n = .next s) : I n s := by
  induction n generalizing s with
  | zero =>
    cases h
    exact hstart
  | succ n ih =>
    obtain ⟨t, ht, hround⟩ := after_next h
    exact hnext n t s (ih ht) hround

/-- The loop ends, or goes on for ever. -/
theorem ends_or (round : σ → π → Round σ ρ) (start : σ) (polls : ℕ → π) :
    (∃ n r, EndsAt round start polls n r) ∨ ∀ n, ∃ s, after round start polls n = .next s := by
  by_cases hends : ∃ n r, EndsAt round start polls n r
  · exact .inl hends
  · refine .inr fun n => ?_
    induction n with
    | zero => exact ⟨start, rfl⟩
    | succ n ih =>
      obtain ⟨s, hs⟩ := ih
      cases hround : round s (polls n) with
      | next s' => exact ⟨s', (after_succ hs).trans hround⟩
      | done r => exact absurd ⟨n, r, s, hs, hround⟩ hends

/-! ## Deadlines -/

section
variable {T : Type} [AddCommGroup T] [LinearOrder T] [IsOrderedAddMonoid T] {time : π → T} {deadline step : T}

/-- Between two looks the clock advances by at least the step, or to the deadline. -/
def Advances (round : σ → π → Round σ ρ) (start : σ) (polls : ℕ → π) (time : π → T) (deadline step : T) : Prop :=
  ∀ n s, after round start polls (n + 1) = .next s → min deadline (time (polls n) + step) ≤ time (polls (n + 1))

theorem Advances.time_le (h : Advances round start polls time deadline step) (hstep : 0 ≤ step) {n : ℕ} {s : σ}
    (hs : after round start polls n = .next s) : min deadline (time (polls 0) + n • step) ≤ time (polls n) := by
  induction n generalizing s with
  | zero => simp
  | succ n ih =>
    obtain ⟨t, ht, -⟩ := after_next hs
    have hbefore := ih ht
    have hnow := h n s hs
    rcases min_le_iff.1 hbefore with hlate | hearly
    · have hpast : deadline ≤ time (polls n) + step := hlate.trans (le_add_of_nonneg_right hstep)
      rw [min_eq_left hpast] at hnow
      exact (min_le_left _ _).trans hnow
    · refine (min_le_min_left deadline ?_).trans hnow
      rw [succ_nsmul, ← add_assoc]
      exact add_le_add_left hearly step

variable [Archimedean T]

/-- **The deadline is reached**, if the loop goes on until then. -/
theorem Advances.reaches (h : Advances round start polls time deadline step) (hstep : 0 < step) :
    ∃ k, ∀ n s, k ≤ n → after round start polls n = .next s → deadline ≤ time (polls n) := by
  obtain ⟨k, hk⟩ := Archimedean.arch (deadline - time (polls 0)) hstep
  refine ⟨k, fun n s hn hs => ?_⟩
  have hsteps : deadline ≤ time (polls 0) + n • step := by
    have hmore : k • step ≤ n • step := nsmul_le_nsmul_left hstep.le hn
    exact (sub_le_iff_le_add'.1 hk).trans (add_le_add_right hmore _)
  have hle := h.time_le hstep.le hs
  rw [min_eq_left hsteps] at hle
  exact hle

/-- **Termination**: the clock reaches the deadline, and from then on every look costs patience. -/
theorem ends (h : Advances round start polls time deadline step) (hstep : 0 < step) {I : σ → Prop} (hstart : I start)
    (hnext : ∀ s p s', I s → round s p = .next s' → I s') (patience : σ → ℕ)
    (hpast : ∀ s p s', I s → deadline ≤ time p → round s p = .next s' → patience s' < patience s) :
    ∃ n r, EndsAt round start polls n r := by
  rcases ends_or round start polls with hends | hgo
  · exact hends
  exfalso
  obtain ⟨k, hk⟩ := h.reaches hstep
  obtain ⟨t, ht⟩ := hgo k
  have hlost : ∀ j s, after round start polls (k + j) = .next s → patience s + j ≤ patience t := by
    intro j
    induction j with
    | zero =>
      intro s hs
      rw [Nat.add_zero, ht] at hs
      cases hs
      exact Nat.le_refl _
    | succ j ih =>
      intro s hs
      obtain ⟨s', hs', hround⟩ := after_next hs
      have hI : I s' := after_invariant (I := fun _ => I) hstart (fun n s s' hs => hnext s (polls n) s' hs) hs'
      have hless := hpast s' _ s hI (hk _ s' (Nat.le_add_right k j) hs') hround
      have hsofar := ih s' hs'
      omega
  obtain ⟨s, hs⟩ := hgo (k + (patience t + 1))
  have hnone := hlost _ s hs
  omega

end

end Polling
