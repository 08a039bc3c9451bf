import Mathlib.Data.List.Basic
import Mathlib.Data.List.Perm.Subperm

/-!
# Loops and the sets they fill

A loop goes from state to state until a round ends it. It is run for a bounded number of
rounds, and has no result if these do not suffice; a round may be a loop itself.

* `Loop.run_invariant`: what every round keeps holds of the result.
* `Loop.run_total`: a measure that every round decreases bounds the rounds.

What a loop has seen is a set in the order in which it was filled.

* `Loop.addAll`: the set with more elements.
* `Loop.missing`: how many elements of a list are not in the set.
-/

namespace Loop

/-- A round goes on from a state, or ends the loop. -/
inductive Round (σ ρ : Type)
  | next (s : σ)
  | done (r : ρ)

variable {σ σ' ρ ρ' : Type}

/-- The loop for so many rounds. A round without a result has none for the loop. -/
def run (round : σ → Option (Round σ ρ)) : ℕ → σ → Option ρ
  | 0, _ => none
  | n + 1, s =>
    match round s with
    | none => none
    | some (.next s') => run round n s'
    | some (.done r) => some r

section
variable {round : σ → Option (Round σ ρ)} {round' : σ' → Option (Round σ' ρ')}

theorem run_next {n : ℕ} {s s' : σ} (h : round s = some (.next s')) :
    run round (n + 1) s = run round n s' := by
  simp only [run, h]

theorem run_done {n : ℕ} {s : σ} {r : ρ} (h : round s = some (.done r)) :
    run round (n + 1) s = some r := by
  simp only [run, h]

/-- **Invariants**: what holds at first and after every round holds when the loop ends. -/
theorem run_invariant {I : σ → Prop} {Q : ρ → Prop} (hnext : ∀ s s', I s → round s = some (.next s') → I s')
    (hdone : ∀ s r, I s → round s = some (.done r) → Q r) {n : ℕ} {s : σ} {r : ρ} (hs : I s)
    (h : run round n s = some r) : Q r := by
  induction n generalizing s with
  | zero => cases h
  | succ n ih =>
    rw [run] at h
    split at h
    · cases h
    · next s' hround => exact ih (hnext s s' hs hround) h
    · next r' hround =>
      cases h
      exact hdone s r hs hround

/-- **Termination**: rounds that decrease a measure end within it. -/
theorem run_total {I : σ → Prop} {μ : σ → ℕ}
    (hround : ∀ s, I s → (∃ r, round s = some (.done r)) ∨
      ∃ s', round s = some (.next s') ∧ I s' ∧ μ s' < μ s) {n : ℕ} {s : σ} (hs : I s) (hn : μ s < n) :
    ∃ r, run round n s = some r := by
  induction n generalizing s with
  | zero => omega
  | succ n ih =>
    rcases hround s hs with ⟨r, hr⟩ | ⟨s', hs', hI, hlt⟩
    · exact ⟨r, run_done hr⟩
    · obtain ⟨r, hr⟩ := ih hI (by omega)
      exact ⟨r, (run_next hs').trans hr⟩

end

/-! ## Loops inside loops -/

section
variable {α β : Type}

/-- The elements that pass a test which may have no result. -/
def keep (p : α → Option Bool) : List α → Option (List α)
  | [] => some []
  | a :: as =>
    match p a, keep p as with
    | some b, some bs => some (if b then a :: bs else bs)
    | _, _ => none

theorem keep_eq {p : α → Option Bool} {as bs : List α} (h : keep p as = some bs) :
    bs = as.filter fun a => p a = some true := by
  induction as generalizing bs with
  | nil =>
    cases h
    rfl
  | cons a as ih =>
    rw [keep] at h
    split at h
    · next b cs hb hcs =>
      cases h
      rw [List.filter_cons, ← ih hcs, hb]
      cases b <;> simp
    · cases h

theorem keep_total {p : α → Option Bool} {as : List α} (h : ∀ a ∈ as, ∃ b, p a = some b) :
    ∃ bs, keep p as = some bs := by
  induction as with
  | nil => exact ⟨[], rfl⟩
  | cons a as ih =>
    obtain ⟨b, hb⟩ := h a List.mem_cons_self
    obtain ⟨bs, hbs⟩ := ih fun a ha => h a (List.mem_cons_of_mem _ ha)
    exact ⟨if b then a :: bs else bs, by simp only [keep, hb, hbs]⟩

theorem mapM_mem {f : α → Option β} {as : List α} {bs : List β} (h : as.mapM f = some bs) :
    (∀ a ∈ as, ∃ b ∈ bs, f a = some b) ∧ ∀ b ∈ bs, ∃ a ∈ as, f a = some b := by
  induction as generalizing bs with
  | nil =>
    obtain rfl : [] = bs := by simpa using h
    simp
  | cons a as ih =>
    rw [List.mapM_cons] at h
    simp only [Option.pure_def, Option.bind_eq_bind, Option.bind_eq_some_iff, Option.some.injEq] at h
    obtain ⟨b, hb, cs, hcs, rfl⟩ := h
    obtain ⟨h₁, h₂⟩ := ih hcs
    simp only [List.mem_cons, forall_eq_or_imp, exists_eq_or_imp]
    exact ⟨⟨Or.inl hb, fun a ha => Or.inr (h₁ a ha)⟩, Or.inl hb, fun b hb => Or.inr (h₂ b hb)⟩

theorem mapM_total {f : α → Option β} {as : List α} (h : ∀ a ∈ as, ∃ b, f a = some b) :
    ∃ bs, as.mapM f = some bs := by
  induction as with
  | nil => exact ⟨[], rfl⟩
  | cons a as ih =>
    obtain ⟨b, hb⟩ := h a List.mem_cons_self
    obtain ⟨bs, hbs⟩ := ih fun a ha => h a (List.mem_cons_of_mem _ ha)
    exact ⟨b :: bs, by simp [List.mapM_cons, hb, hbs]⟩

end

/-! ## Sets in the order they are filled -/

section
variable {α : Type} [DecidableEq α]

def add (A : List α) (u : α) : List α := if u ∈ A then A else A ++ [u]

def addAll (A : List α) (us : List α) : List α := us.foldl add A

@[simp] theorem addAll_nil (A : List α) : addAll A [] = A := rfl

@[simp] theorem addAll_cons (A : List α) (u : α) (us : List α) : addAll A (u :: us) = addAll (add A u) us := rfl

@[simp] theorem mem_add {A : List α} {u v : α} : v ∈ add A u ↔ v ∈ A ∨ v = u := by
  rw [add]
  split
  · next h =>
    constructor
    · exact Or.inl
    · rintro (hv | rfl)
      · exact hv
      · exact h
  · simp

@[simp] theorem mem_addAll {A us : List α} {v : α} : v ∈ addAll A us ↔ v ∈ A ∨ v ∈ us := by
  induction us generalizing A with
  | nil => simp
  | cons u us ih => rw [addAll_cons, ih, mem_add, List.mem_cons, or_assoc]

theorem nodup_add {A : List α} {u : α} (h : A.Nodup) : (add A u).Nodup := by
  rw [add]
  split
  · exact h
  · next hu => simpa [List.nodup_append] using ⟨h, fun a ha hau => hu (hau ▸ ha)⟩

theorem nodup_addAll {A us : List α} (h : A.Nodup) : (addAll A us).Nodup := by
  induction us generalizing A with
  | nil => exact h
  | cons u us ih => exact ih (nodup_add h)

/-- The elements of a list that are not in the set yet. -/
def missing (us A : List α) : ℕ := (us.filter (· ∉ A)).length

theorem missing_le (us A : List α) : missing us A ≤ us.length := List.length_filter_le _ _

theorem missing_anti {us A B : List α} (hsub : ∀ v ∈ A, v ∈ B) : missing us B ≤ missing us A := by
  refine (List.monotone_filter_right us ?_).length_le
  intro v hv
  rw [decide_eq_true_eq] at hv ⊢
  exact fun hA => hv (hsub v hA)

/-- A set that has one more of the list misses less. -/
theorem missing_lt {us A B : List α} {u : α} (hsub : ∀ v ∈ A, v ∈ B) (hu : u ∈ us) (hA : u ∉ A) (hB : u ∈ B) :
    missing us B < missing us A := by
  obtain ⟨before, after, rfl⟩ := List.append_of_mem hu
  have hb := @missing_anti _ _ before _ _ hsub
  have ha := @missing_anti _ _ after _ _ hsub
  unfold missing at hb ha ⊢
  rw [List.filter_append, List.filter_append, List.length_append, List.length_append,
    List.filter_cons_of_neg (by simpa using hB), List.filter_cons_of_pos (by simpa using hA), List.length_cons]
  omega

end

end Loop
