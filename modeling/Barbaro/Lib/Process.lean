import Mathlib.Logic.Function.Basic

/-!
# Processes over shared state

A process performs operations one after the other, each depending on the answers to those
before it. Any number of processes run interleaved, one operation at a time, on a state
that they share.

* `Process.Always`: what holds of a process at its end, whatever its operations answer.
* `Process.Performs`: what holds of every operation it comes to.
* `always_bind`, `Performs.bind`: the rules of composition.
* `Interleaving.always`: in an interleaving each process keeps what always holds of it.
* `Interleaving.others`: a process whose operations have no effect leaves the state to the
  others.
-/

namespace Barbaro

/-- A process with the operations `Op`, answered in `Ret`, and a result in `α`. -/
inductive Process (Op : Type) (Ret : Op → Type) (α : Type)
  | ret (a : α)
  | op (o : Op) (k : Ret o → Process Op Ret α)

namespace Process

variable {Op : Type} {Ret : Op → Type} {α β σ : Type}

/-- One process, and then the next. -/
def bind : Process Op Ret α → (α → Process Op Ret β) → Process Op Ret β
  | ret a, f => f a
  | op o k, f => op o (fun r => (k r).bind f)

instance : Monad (Process Op Ret) where
  pure := ret
  bind := bind

@[simp] theorem pure_eq (a : α) : (pure a : Process Op Ret α) = ret a := rfl

@[simp] theorem bind_eq (p : Process Op Ret α) (f : α → Process Op Ret β) : p >>= f = p.bind f := rfl

/-- A single operation. -/
def perform (o : Op) : Process Op Ret (Ret o) := op o ret

/-- A process that runs alone, on operations that have one answer. -/
def eval (f : (o : Op) → σ → Ret o × σ) : Process Op Ret α → σ → α × σ
  | ret a, s => (a, s)
  | op o k, s => (k (f o s).1).eval f (f o s).2

@[simp] theorem eval_ret (f : (o : Op) → σ → Ret o × σ) (a : α) (s : σ) :
    (ret a : Process Op Ret α).eval f s = (a, s) := rfl

@[simp] theorem eval_perform (f : (o : Op) → σ → Ret o × σ) (o : Op) (s : σ) :
    (perform o : Process Op Ret (Ret o)).eval f s = f o s := rfl

@[simp] theorem eval_bind (f : (o : Op) → σ → Ret o × σ) (p : Process Op Ret α)
    (g : α → Process Op Ret β) (s : σ) :
    (p.bind g).eval f s = (g (p.eval f s).1).eval f (p.eval f s).2 := by
  induction p generalizing s with
  | ret a => rfl
  | op o k ih => exact ih _ _

/-! ## What always holds at the end -/

/-- `Q` holds at the end, of the operations performed (after those of `done`) and the
result, whatever the operations answer within `R`. -/
def Always (R : (o : Op) → Ret o → Prop) (Q : List Op → α → Prop) : List Op → Process Op Ret α → Prop
  | done, ret a => Q done a
  | done, op o k => ∀ r, R o r → Always R Q (done ++ [o]) (k r)

variable {R : (o : Op) → Ret o → Prop}

@[simp] theorem always_ret {Q : List Op → α → Prop} {done : List Op} {a : α} :
    Always R Q done (ret a) ↔ Q done a := Iff.rfl

@[simp] theorem always_op {Q : List Op → α → Prop} {done : List Op} {o : Op}
    {k : Ret o → Process Op Ret α} :
    Always R Q done (op o k) ↔ ∀ r, R o r → Always R Q (done ++ [o]) (k r) := Iff.rfl

@[simp] theorem always_perform {o : Op} {Q : List Op → Ret o → Prop} {done : List Op} :
    Always R Q done (perform o : Process Op Ret (Ret o)) ↔ ∀ r, R o r → Q (done ++ [o]) r := Iff.rfl

theorem Always.mono {Q Q' : List Op → α → Prop} (hQ : ∀ done a, Q done a → Q' done a)
    {done : List Op} {p : Process Op Ret α} (h : Always R Q done p) : Always R Q' done p := by
  induction p generalizing done with
  | ret a => exact hQ done a h
  | op o k ih => exact fun r hr => ih r (h r hr)

/-- **Composition**: what the second process needs always holds at the end of the first. -/
@[simp] theorem always_bind {Q : List Op → β → Prop} {done : List Op} {p : Process Op Ret α}
    {f : α → Process Op Ret β} :
    Always R Q done (p.bind f) ↔ Always R (fun done a => Always R Q done (f a)) done p := by
  induction p generalizing done with
  | ret a => exact Iff.rfl
  | op o k ih => exact forall_congr' fun r => forall_congr' fun _ => ih r

/-! ## What holds on the way -/

/-- `P` holds of every operation the process comes to, whatever they answer within `R`. -/
def Performs (R : (o : Op) → Ret o → Prop) (P : Op → Prop) : Process Op Ret α → Prop
  | ret _ => True
  | op o k => P o ∧ ∀ r, R o r → Performs R P (k r)

variable {P : Op → Prop}

/-- **Composition**: the second process is one that keeps to `P` at the end of the first. -/
theorem Performs.bind {p : Process Op Ret α} (h : Performs R P p) {f : α → Process Op Ret β}
    {done : List Op} (hf : Always R (fun _ a => Performs R P (f a)) done p) : Performs R P (p.bind f) := by
  induction p generalizing done with
  | ret a => exact hf
  | op o k ih => exact ⟨h.1, fun r hr => ih r (h.2 r hr) (hf r hr)⟩

/-- At the end all operations have been of that kind. -/
theorem Performs.always {p : Process Op Ret α} (h : Performs R P p) {done : List Op}
    (hdone : ∀ o ∈ done, P o) : Always R (fun done _ => ∀ o ∈ done, P o) done p := by
  induction p generalizing done with
  | ret a => exact hdone
  | op o k ih =>
    refine fun r hr => ih r (h.2 r hr) fun o' ho' => ?_
    rcases List.mem_append.1 ho' with ho' | ho'
    · exact hdone o' ho'
    · rw [List.mem_singleton.1 ho']
      exact h.1

end Process

/-! ## Interleavings -/

/-- One operation of an interleaving: whose it is, and the state before it. -/
structure Performed (ι Op σ : Type) where
  process : ι
  before : σ
  op : Op

section
variable {ι Op σ α : Type} {Ret : Op → Type} [DecidableEq ι]

/-- The operations of a process. -/
def operationsOf (i : ι) (trace : List (Performed ι Op σ)) : List Op :=
  (trace.filter (fun e => e.process = i)).map Performed.op

/-- The operations of the other processes. -/
def operationsOfOthers (i : ι) (trace : List (Performed ι Op σ)) : List Op :=
  (trace.filter (fun e => e.process ≠ i)).map Performed.op

variable (answers : (o : Op) → σ → Ret o → Prop) (effect : Op → σ → σ)

/-- The interleavings of some processes, from where they start. A process may stop for
good at any point. -/
inductive Interleaving (start : ι → Process Op Ret α) (s₀ : σ) :
    (ι → Process Op Ret α) → σ → List (Performed ι Op σ) → Prop
  | refl : Interleaving start s₀ start s₀ []
  | step {now : ι → Process Op Ret α} {s : σ} {trace : List (Performed ι Op σ)} (i : ι) (o : Op)
      (k : Ret o → Process Op Ret α) (r : Ret o) (run : Interleaving start s₀ now s trace)
      (hnow : now i = .op o k) (hr : answers o s r) :
      Interleaving start s₀ (Function.update now i (k r)) (effect o s) (trace ++ [⟨i, s, o⟩])

variable {answers effect}

/-- **What always holds of a process holds of it in every interleaving**, when the states
in which it has performed its operations answer within `R`. -/
theorem Interleaving.always {start now : ι → Process Op Ret α} {s₀ s : σ} {trace : List (Performed ι Op σ)}
    (h : Interleaving answers effect start s₀ now s trace) {i : ι} {R : (o : Op) → Ret o → Prop}
    (hR : ∀ e ∈ trace, e.process = i → ∀ r, answers e.op e.before r → R e.op r)
    {Q : List Op → α → Prop} (hstart : Process.Always R Q [] (start i)) :
    Process.Always R Q (operationsOf i trace) (now i) := by
  induction h with
  | refl => exact hstart
  | @step now s trace j o k r run hnow hr ih =>
    have ih := ih (fun e he => hR e (List.mem_append_left _ he))
    rw [operationsOf, List.filter_append, List.map_append]
    by_cases hij : j = i
    · subst hij
      rw [hnow] at ih
      have hmem : (⟨j, s, o⟩ : Performed ι Op σ) ∈ trace ++ [⟨j, s, o⟩] := by simp
      have hnext := ih r (hR _ hmem rfl r hr)
      rw [Function.update_self]
      simpa [operationsOf] using hnext
    · rw [Function.update_of_ne (Ne.symm hij)]
      simpa [operationsOf, hij] using ih

/-- The operations a process has performed are of the kind it keeps to. -/
theorem Interleaving.performs {start now : ι → Process Op Ret α} {s₀ s : σ}
    {trace : List (Performed ι Op σ)} (h : Interleaving answers effect start s₀ now s trace) {i : ι}
    {R : (o : Op) → Ret o → Prop} {P : Op → Prop}
    (hR : ∀ e ∈ trace, e.process = i → ∀ r, answers e.op e.before r → R e.op r)
    (hstart : (start i).Performs R P) :
    (now i).Performs R P ∧ ∀ e ∈ trace, e.process = i → P e.op := by
  induction h with
  | refl => exact ⟨hstart, by simp⟩
  | @step now s trace j o k r run hnow hr ih =>
    obtain ⟨hlater, hbefore⟩ := ih (fun e he => hR e (List.mem_append_left _ he))
    by_cases hij : j = i
    · subst hij
      rw [hnow] at hlater
      rw [Function.update_self]
      refine ⟨hlater.2 r (hR ⟨j, s, o⟩ (by simp) rfl r hr), fun e he hej => ?_⟩
      rcases List.mem_append.1 he with he | he
      · exact hbefore e he hej
      · rw [List.mem_singleton.1 he]
        exact hlater.1
    · rw [Function.update_of_ne (Ne.symm hij)]
      refine ⟨hlater, fun e he hei => ?_⟩
      rcases List.mem_append.1 he with he | he
      · exact hbefore e he hei
      · rw [List.mem_singleton.1 he] at hei
        exact absurd hei hij

/-- The state is what the operations have made of it, in order. -/
theorem Interleaving.state {start now : ι → Process Op Ret α} {s₀ s : σ} {trace : List (Performed ι Op σ)}
    (h : Interleaving answers effect start s₀ now s trace) :
    s = (trace.map Performed.op).foldl (fun s o => effect o s) s₀ := by
  induction h with
  | refl => rfl
  | step i o k r run hnow hr ih =>
    rw [List.map_append, List.foldl_append, ← ih]
    rfl

/-- **A process whose operations have no effect** leaves the state as the others make it. -/
theorem Interleaving.others {start now : ι → Process Op Ret α} {s₀ s : σ} {trace : List (Performed ι Op σ)}
    (h : Interleaving answers effect start s₀ now s trace) {i : ι}
    (hquiet : ∀ o ∈ operationsOf i trace, ∀ s, effect o s = s) :
    s = (operationsOfOthers i trace).foldl (fun s o => effect o s) s₀ := by
  rw [h.state]
  clear h
  induction trace generalizing s₀ with
  | nil => rfl
  | cons e trace ih =>
    have hrest : ∀ o ∈ operationsOf i trace, ∀ s, effect o s = s := by
      intro o ho
      refine hquiet o ?_
      simp only [operationsOf, List.mem_map, List.mem_filter] at ho ⊢
      obtain ⟨e', ⟨he', hi⟩, rfl⟩ := ho
      exact ⟨e', ⟨List.mem_cons_of_mem _ he', hi⟩, rfl⟩
    by_cases hi : e.process = i
    · have hnone : effect e.op s₀ = s₀ := hquiet e.op (by simp [operationsOf, hi]) s₀
      simp only [List.map_cons, List.foldl_cons, hnone, operationsOfOthers, List.filter_cons, hi, ne_eq,
        not_true_eq_false, decide_false, Bool.false_eq_true, if_false]
      exact ih hrest
    · simp only [List.map_cons, List.foldl_cons, operationsOfOthers, List.filter_cons, hi, ne_eq,
        not_false_eq_true, decide_true, if_true]
      exact ih hrest

end

end Barbaro
