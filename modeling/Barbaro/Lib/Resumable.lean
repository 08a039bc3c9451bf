import Mathlib.Data.List.Basic

/-!
# Machines that stop and go on

A machine that takes its inputs one by one, keeps a state and gives an output for each of them. Its
inputs come in pieces: after a piece the state is saved, and the machine that takes the next piece goes
on from what was saved.

* `run`, `resumed`: all inputs at once, and piece by piece.
* `Along`: a condition on every input at the state in which it is taken.
* `run_invariant`: what each step keeps holds after a run.
* `Faithful.resumed`: a machine whose saved state stands for the one it had gives the same outputs
  piece by piece.
-/

namespace Resumable

variable {σ ι ο ε : Type} {step : ι → σ → Except ε (σ × ο)} {save : σ → Except ε σ}

/-- The state after all inputs, with the output of each. -/
def run (step : ι → σ → Except ε (σ × ο)) : List ι → σ → Except ε (σ × List ο)
  | [], s => .ok (s, [])
  | x :: xs, s => do
    let (s, o) ← step x s
    let (s, os) ← run step xs s
    return (s, o :: os)

/-- The same in pieces, each from what was saved after the one before it. -/
def resumed (step : ι → σ → Except ε (σ × ο)) (save : σ → Except ε σ) : List (List ι) → σ → Except ε (σ × List ο)
  | [], s => .ok (s, [])
  | piece :: pieces, s => do
    let (s, os) ← run step piece s
    let s ← save s
    let (s, more) ← resumed step save pieces s
    return (s, os ++ more)

/-- The condition holds of every input at the state in which it is taken. -/
def Along (step : ι → σ → Except ε (σ × ο)) (p : ι → σ → Prop) : List ι → σ → Prop
  | [], _ => True
  | x :: xs, s => p x s ∧ ∀ s' o, step x s = .ok (s', o) → Along step p xs s'

theorem run_cons {x : ι} {xs : List ι} {s t : σ} {out : List ο} :
    run step (x :: xs) s = .ok (t, out) ↔
      ∃ s' o os, step x s = .ok (s', o) ∧ run step xs s' = .ok (t, os) ∧ out = o :: os := by
  have hcons : run step (x :: xs) s = step x s >>= fun r => run step xs r.1 >>= fun q => pure (q.1, r.2 :: q.2) := rfl
  rw [hcons]
  constructor
  · intro h
    cases hstep : step x s with
    | error e =>
      rw [hstep] at h
      cases h
    | ok r =>
      rw [hstep] at h
      cases hrun : run step xs r.1 with
      | error e =>
        change run step xs r.1 >>= _ = _ at h
        rw [hrun] at h
        cases h
      | ok q =>
        change run step xs r.1 >>= _ = _ at h
        rw [hrun] at h
        cases h
        exact ⟨r.1, r.2, q.2, rfl, hrun, rfl⟩
  · rintro ⟨s', o, os, hstep, hrun, rfl⟩
    rw [hstep]
    change run step xs s' >>= _ = _
    rw [hrun]
    rfl

theorem resumed_cons {piece : List ι} {pieces : List (List ι)} {s u v t : σ} {os more : List ο}
    (hrun : run step piece s = .ok (u, os)) (hsave : save u = .ok v) (hrest : resumed step save pieces v = .ok (t, more)) :
    resumed step save (piece :: pieces) s = .ok (t, os ++ more) := by
  have hcons : resumed step save (piece :: pieces) s =
      run step piece s >>= fun r => save r.1 >>= fun v =>
        resumed step save pieces v >>= fun q => pure (q.1, r.2 ++ q.2) := rfl
  rw [hcons, hrun]
  change save u >>= _ = _
  rw [hsave]
  change resumed step save pieces v >>= _ = _
  rw [hrest]
  rfl

theorem run_append {xs ys : List ι} {s t : σ} {out : List ο} (h : run step (xs ++ ys) s = .ok (t, out)) :
    ∃ u os more, run step xs s = .ok (u, os) ∧ run step ys u = .ok (t, more) ∧ out = os ++ more := by
  induction xs generalizing s out with
  | nil => exact ⟨s, [], out, rfl, h, rfl⟩
  | cons x xs ih =>
    obtain ⟨s', o, os, hstep, hrest, rfl⟩ := run_cons.1 h
    obtain ⟨u, os, more, hxs, hys, rfl⟩ := ih hrest
    exact ⟨u, o :: os, more, run_cons.2 ⟨s', o, os, hstep, hxs, rfl⟩, hys, rfl⟩

theorem along_append {p : ι → σ → Prop} {xs ys : List ι} {s u : σ} {os : List ο} (h : Along step p (xs ++ ys) s)
    (hrun : run step xs s = .ok (u, os)) : Along step p xs s ∧ Along step p ys u := by
  induction xs generalizing s os with
  | nil =>
    cases hrun
    exact ⟨trivial, h⟩
  | cons x xs ih =>
    obtain ⟨s', o, os, hstep, hrest, rfl⟩ := run_cons.1 hrun
    refine ⟨⟨h.1, fun t o' ht => ?_⟩, (ih (h.2 s' o hstep) hrest).2⟩
    rw [hstep] at ht
    cases ht
    exact (ih (h.2 s' o hstep) hrest).1

/-- **The run rule**: an invariant that holds before holds after, and each output was given in it. -/
theorem run_invariant {inv : σ → Prop} {good : ο → Prop}
    (hinv : ∀ x s s' o, inv s → step x s = .ok (s', o) → inv s' ∧ good o)
    {xs : List ι} {s t : σ} {out : List ο} (hs : inv s) (h : run step xs s = .ok (t, out)) :
    inv t ∧ ∀ o ∈ out, good o := by
  induction xs generalizing s out with
  | nil =>
    cases h
    exact ⟨hs, fun o ho => absurd ho List.not_mem_nil⟩
  | cons x xs ih =>
    obtain ⟨s', o, os, hstep, hrest, rfl⟩ := run_cons.1 h
    have hone := hinv x s s' o hs hstep
    have hmore := ih hone.1 hrest
    exact ⟨hmore.1, List.forall_mem_cons.2 ⟨hone.2, hmore.2⟩⟩

/-- What every step counts up by one counts the inputs. -/
theorem run_count {count : σ → ℕ} (hcount : ∀ x s s' o, step x s = .ok (s', o) → count s' = count s + 1) {xs : List ι}
    {s t : σ} {out : List ο} (h : run step xs s = .ok (t, out)) : count t = count s + xs.length := by
  induction xs generalizing s out with
  | nil =>
    cases h
    rfl
  | cons x xs ih =>
    obtain ⟨s', o, os, hstep, hrest, rfl⟩ := run_cons.1 h
    rw [ih hrest, hcount x s s' o hstep, List.length_cons]
    omega

/-- A state that stands for another takes the same inputs with the same outputs, and so does the state
that is restored of it. The state it stands for is one from which a run can be `done`. -/
structure Faithful (step : ι → σ → Except ε (σ × ο)) (save : σ → Except ε σ) (p : ι → σ → Prop) (done : σ → Prop)
    (standsFor : σ → σ → Prop) : Prop where
  step_ok : ∀ {x m n n' o}, standsFor m n → p x n → step x n = .ok (n', o) →
    ∃ m', step x m = .ok (m', o) ∧ standsFor m' n'
  done_back : ∀ {x n n' o}, step x n = .ok (n', o) → done n' → done n
  save_ok : ∀ {m n}, standsFor m n → done n → ∃ m', save m = .ok m' ∧ standsFor m' n

variable {p : ι → σ → Prop} {done : σ → Prop} {standsFor : σ → σ → Prop}

theorem Faithful.run (h : Faithful step save p done standsFor) {xs : List ι} {m n n' : σ} {out : List ο}
    (hmn : standsFor m n) (hp : Along step p xs n) (hrun : run step xs n = .ok (n', out)) :
    ∃ m', Resumable.run step xs m = .ok (m', out) ∧ standsFor m' n' := by
  induction xs generalizing m n out with
  | nil =>
    cases hrun
    exact ⟨m, rfl, hmn⟩
  | cons x xs ih =>
    obtain ⟨n1, o, os, hstep, hrest, rfl⟩ := run_cons.1 hrun
    obtain ⟨m1, hm1, hmn1⟩ := h.step_ok hmn hp.1 hstep
    obtain ⟨m', hm', hend⟩ := ih hmn1 (hp.2 n1 o hstep) hrest
    exact ⟨m', run_cons.2 ⟨m1, o, os, hm1, hm', rfl⟩, hend⟩

theorem Faithful.done_run (h : Faithful step save p done standsFor) {xs : List ι} {n n' : σ} {out : List ο}
    (hrun : Resumable.run step xs n = .ok (n', out)) (hdone : done n') : done n := by
  induction xs generalizing n out with
  | nil =>
    cases hrun
    exact hdone
  | cons x xs ih =>
    obtain ⟨n1, o, os, hstep, hrest, rfl⟩ := run_cons.1 hrun
    exact h.done_back hstep (ih hrest)

/-- **In pieces as at once**: the pieces give the outputs of the whole, and end in a state that stands for
its end. -/
theorem Faithful.resumed (h : Faithful step save p done standsFor) {pieces : List (List ι)} {m n n' : σ}
    {out : List ο} (hmn : standsFor m n) (hp : Along step p pieces.flatten n)
    (hrun : Resumable.run step pieces.flatten n = .ok (n', out)) (hdone : done n') :
    ∃ m', Resumable.resumed step save pieces m = .ok (m', out) ∧ standsFor m' n' := by
  induction pieces generalizing m n out with
  | nil =>
    cases hrun
    exact ⟨m, rfl, hmn⟩
  | cons piece pieces ih =>
    rw [List.flatten_cons] at hp hrun
    obtain ⟨u, os, more, hpiece, hrest, rfl⟩ := run_append hrun
    obtain ⟨hp1, hp2⟩ := along_append hp hpiece
    obtain ⟨m1, hm1, hmu⟩ := h.run hmn hp1 hpiece
    obtain ⟨m2, hm2, hmu2⟩ := h.save_ok hmu (h.done_run hrest hdone)
    obtain ⟨m', hm', hend⟩ := ih hmu2 hp2 hrest
    refine ⟨m', ?_, hend⟩
    exact resumed_cons hm1 hm2 hm'

end Resumable
