import Mathlib.Algebra.Ring.Nat
import Mathlib.Data.List.Basic

/-!
# Cutting a sequence at a separator

A sequence over any alphabet is read as separator-terminated *lines* followed by
an unterminated *tail*.

* `cut`: the lines and the tail of a sequence.
* `cut_eq`: the lines, put back together with the tail, are the sequence, and no
  line and no tail contains the separator. This determines them (`cut_unique`).
* `cut_append`: cutting `a ++ b` keeps the lines of `a` and goes on cutting from
  the tail of `a`. So cutting is compatible with appending, at any place.
-/

namespace Lines

variable {α : Type*} (sep : α)

/-- Lines written back, each with its separator. -/
def join : List (List α) → List α
  | [] => []
  | l :: ls => l ++ sep :: join ls

variable {sep}

@[simp] theorem join_nil : join sep ([] : List (List α)) = [] := rfl

@[simp] theorem join_cons (l : List α) (ls : List (List α)) :
    join sep (l :: ls) = l ++ sep :: join sep ls := rfl

theorem join_append (a b : List (List α)) : join sep (a ++ b) = join sep a ++ join sep b := by
  induction a with
  | nil => rfl
  | cons l ls ih => simp [ih]

variable [DecidableEq α]

variable (sep) in
/-- The separator-terminated lines of a sequence, without their separators, and
the unterminated tail. -/
def cut : List α → List (List α) × List α
  | [] => ([], [])
  | x :: xs =>
    if x = sep then ([] :: (cut xs).1, (cut xs).2)
    else match cut xs with
      | ([], t) => ([], x :: t)
      | (l :: ls, t) => ((x :: l) :: ls, t)

@[simp] theorem cut_nil : cut sep ([] : List α) = ([], []) := rfl

theorem cut_sep (xs : List α) : cut sep (sep :: xs) = ([] :: (cut sep xs).1, (cut sep xs).2) := by
  rw [cut, if_pos rfl]

/-- The lines, put back together with the tail, are the sequence. -/
theorem cut_eq (sep : α) (s : List α) : join sep (cut sep s).1 ++ (cut sep s).2 = s := by
  induction s with
  | nil => rfl
  | cons x xs ih =>
    rw [cut]
    split
    · next h => simp [h, ih]
    · rcases h : cut sep xs with ⟨ls, t⟩
      rw [h] at ih
      cases ls with
      | nil => simpa using ih
      | cons l ls => simpa using ih

/-- Neither a line nor the tail contains the separator. -/
theorem cut_free (sep : α) (s : List α) :
    (∀ l ∈ (cut sep s).1, sep ∉ l) ∧ sep ∉ (cut sep s).2 := by
  induction s with
  | nil => simp
  | cons x xs ih =>
    rw [cut]
    split
    · refine ⟨?_, ih.2⟩
      intro l hl
      rcases List.mem_cons.1 hl with rfl | hl
      · simp
      · exact ih.1 l hl
    · next hx =>
      rcases h : cut sep xs with ⟨ls, t⟩
      rw [h] at ih
      cases ls with
      | nil => simpa [Ne.symm hx] using ih.2
      | cons l ls =>
        refine ⟨?_, ih.2⟩
        intro m hm
        rcases List.mem_cons.1 hm with rfl | hm
        · simpa [Ne.symm hx] using ih.1 l (by simp)
        · exact ih.1 m (by simp [hm])

theorem cut_of_free {t : List α} (ht : sep ∉ t) : cut sep t = ([], t) := by
  induction t with
  | nil => rfl
  | cons x xs ih =>
    have hx : x ≠ sep := fun h => ht (by simp [h])
    rw [cut, if_neg hx, ih (fun h => ht (by simp [h]))]

/-- A complete line in front of a sequence is its first line. -/
theorem cut_line {l : List α} (hl : sep ∉ l) (s : List α) :
    cut sep (l ++ sep :: s) = (l :: (cut sep s).1, (cut sep s).2) := by
  induction l with
  | nil => exact cut_sep s
  | cons x xs ih =>
    have hx : x ≠ sep := fun h => hl (by simp [h])
    rw [List.cons_append, cut, if_neg hx, ih (fun h => hl (by simp [h]))]

/-- Complete lines in front of a sequence are its first lines. -/
theorem cut_join {ls : List (List α)} (hls : ∀ l ∈ ls, sep ∉ l) (s : List α) :
    cut sep (join sep ls ++ s) = (ls ++ (cut sep s).1, (cut sep s).2) := by
  induction ls with
  | nil => simp
  | cons l ls ih =>
    rw [join_cons, List.append_assoc, List.cons_append, cut_line (hls l (by simp)),
      ih (fun m hm => hls m (by simp [hm])), List.cons_append]

/-- The decomposition into separator-free lines and a separator-free tail is unique. -/
theorem cut_unique {ls : List (List α)} {t : List α} (hls : ∀ l ∈ ls, sep ∉ l) (ht : sep ∉ t) :
    cut sep (join sep ls ++ t) = (ls, t) := by
  rw [cut_join hls, cut_of_free ht, List.append_nil]

/-- Lines with a sequence put in front of the first of them. -/
def glue (f : List α) : List (List α) → List (List α)
  | [] => []
  | l :: ls => (f ++ l) :: ls

omit [DecidableEq α] in
@[simp] theorem glue_eq_nil {f : List α} {ls : List (List α)} : glue f ls = [] ↔ ls = [] := by
  cases ls <;> simp [glue]

/-- What a separator-free sequence in front changes: the first line, or the tail if
there is no line. -/
theorem cut_append_of_free {f : List α} (hf : sep ∉ f) (b : List α) :
    cut sep (f ++ b) =
      (glue f (cut sep b).1, if (cut sep b).1 = [] then f ++ (cut sep b).2 else (cut sep b).2) := by
  have hb := cut_free sep b
  conv_lhs => rw [← cut_eq sep b]
  rcases h : cut sep b with ⟨ls, t⟩
  rw [h] at hb
  cases ls with
  | nil =>
    have : sep ∉ f ++ t := by simpa [hf] using hb.2
    simpa [glue] using cut_of_free this
  | cons l ls =>
    have hl : sep ∉ f ++ l := by simpa [hf] using hb.1 l (by simp)
    rw [join_cons, List.append_assoc, ← List.append_assoc, List.cons_append, cut_line hl,
      cut_unique (fun m hm => hb.1 m (by simp [hm])) hb.2]
    simp [glue]

/-- **Cutting is compatible with appending**: the lines of `a` stay, and cutting
goes on from the tail of `a`. -/
theorem cut_append (sep : α) (a b : List α) :
    cut sep (a ++ b) =
      ((cut sep a).1 ++ (cut sep ((cut sep a).2 ++ b)).1, (cut sep ((cut sep a).2 ++ b)).2) := by
  conv_lhs => rw [← cut_eq sep a, List.append_assoc]
  rw [cut_join (cut_free sep a).1]

/-- The length of the complete lines of a sequence, separators included: the
offset of the tail. -/
def doneLength (sep : α) (s : List α) : ℕ := (join sep (cut sep s).1).length

theorem doneLength_add (sep : α) (s : List α) : doneLength sep s + (cut sep s).2.length = s.length := by
  conv_rhs => rw [← cut_eq sep s]
  simp [doneLength]

theorem doneLength_le (sep : α) (s : List α) : doneLength sep s ≤ s.length := by
  have := doneLength_add sep s; omega

theorem take_doneLength (sep : α) (s : List α) : s.take (doneLength sep s) = join sep (cut sep s).1 :=
  (congrArg (List.take _) (cut_eq sep s).symm).trans List.take_left

end Lines
