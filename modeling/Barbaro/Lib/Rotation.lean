import Mathlib.Data.List.Nodup
import Mathlib.Data.List.Rotate
import Mathlib.Data.List.Infix

/-!
# Rotations

A rotation shows the members of a list one after the other, each once in a cycle, and
begins the next cycle with another member than the last one of this cycle.

* `extend`: a list, with what it lacks of another added at the end (`extend_of_subset`).
* `Cycle`: a cycle in progress, `Cycle.next` its next member.
* `fresh`: the order of a cycle that begins after the last one shown (`fresh_head_ne`).
-/

namespace Rotation

variable {K : Type*} [BEq K] [LawfulBEq K]

/-! ## Lists without duplicates -/

/-- Add what the list lacks of another, in its order. -/
def extend (order : List K) : List K → List K
  | [] => order
  | k :: ks => if k ∈ order then extend order ks else extend (order ++ [k]) ks

theorem mem_extend {order ks : List K} {k : K} : k ∈ extend order ks ↔ k ∈ order ∨ k ∈ ks := by
  induction ks generalizing order with
  | nil => simp [extend]
  | cons j ks ih =>
    rw [extend]
    split
    · next hmem =>
      rw [ih, List.mem_cons]
      constructor
      · rintro (h | h)
        · exact .inl h
        · exact .inr (.inr h)
      · rintro (h | rfl | h)
        · exact .inl h
        · exact .inl hmem
        · exact .inr h
    · rw [ih, List.mem_append, List.mem_singleton, List.mem_cons, or_assoc]

theorem nodup_extend {order : List K} (h : order.Nodup) (ks : List K) : (extend order ks).Nodup := by
  induction ks generalizing order with
  | nil => exact h
  | cons j ks ih =>
    rw [extend]
    split
    · exact ih h
    · next hmem =>
      refine ih (List.nodup_append.2 ⟨h, List.nodup_singleton j, ?_⟩)
      rintro a ha b hb rfl
      exact hmem (List.mem_singleton.1 hb ▸ ha)

/-- A list that lacks nothing stays as it is. -/
theorem extend_of_subset {order ks : List K} (h : ∀ k ∈ ks, k ∈ order) : extend order ks = order := by
  induction ks with
  | nil => rfl
  | cons j ks ih =>
    rw [extend, if_pos (h j List.mem_cons_self)]
    exact ih fun k hk => h k (List.mem_cons_of_mem _ hk)

/-- What is kept of an order and then extended is a permutation of what it is extended by. -/
theorem extend_perm {order ks : List K} (horder : order.Nodup) (hks : ks.Nodup) (hsub : ∀ k ∈ order, k ∈ ks) :
    (extend order ks).Perm ks := by
  refine (List.perm_ext_iff_of_nodup (nodup_extend horder ks) hks).2 fun k => ?_
  rw [mem_extend]
  exact ⟨fun h => h.elim (hsub k) id, .inr⟩

/-! ## Cycles -/

/-- A cycle in progress: who was shown in it, who is shown, and who is still to come. -/
structure Cycle (K : Type*) where
  past : List K
  now : K
  ahead : List K
  nodup : (past ++ now :: ahead).Nodup

namespace Cycle

omit [BEq K] [LawfulBEq K]

/-- The members in the order of the cycle. -/
def members (c : Cycle K) : List K := c.past ++ c.now :: c.ahead

/-- The cycle with the next member shown; nothing at its end. -/
def next (c : Cycle K) : Option (Cycle K) :=
  match c with
  | ⟨_, _, [], _⟩ => none
  | ⟨past, now, k :: ahead, h⟩ => some ⟨past ++ [now], k, ahead, by simpa using h⟩

theorem next_members {c c' : Cycle K} (h : c.next = some c') : c'.members = c.members := by
  obtain ⟨past, now, ahead, hnodup⟩ := c
  cases ahead with
  | nil => cases h
  | cons k ahead =>
    cases h
    simp [members]

theorem next_some {c c' : Cycle K} (h : c.next = some c') : c.ahead = c'.now :: c'.ahead := by
  obtain ⟨past, now, ahead, hnodup⟩ := c
  cases ahead with
  | nil => cases h
  | cons k ahead =>
    cases h
    rfl

theorem next_none {c : Cycle K} : c.next = none ↔ c.ahead = [] := by
  obtain ⟨past, now, ahead, hnodup⟩ := c
  cases ahead with
  | nil => exact ⟨fun _ => rfl, fun _ => rfl⟩
  | cons k ahead => exact ⟨(nomatch ·), (nomatch ·)⟩

end Cycle

variable {c : Cycle K}

/-- The place of the member that is shown. -/
theorem Cycle.idxOf_now (c : Cycle K) : c.members.idxOf c.now = c.past.length := by
  obtain ⟨past, now, ahead, hnodup⟩ := c
  have hnot : now ∉ past := by
    intro hmem
    exact (List.nodup_append.1 hnodup).2.2 now hmem now List.mem_cons_self rfl
  rw [members, List.idxOf_append_of_notMem hnot, List.idxOf_cons_self, Nat.add_zero]

/-! ## The next cycle -/

/-- The order of a cycle that begins after a member. -/
def fresh (ks : List K) (k : K) : List K :=
  ks.drop ((ks.idxOf k + 1) % ks.length) ++ ks.take ((ks.idxOf k + 1) % ks.length)

omit [LawfulBEq K] in
theorem fresh_perm (ks : List K) (k : K) : (fresh ks k).Perm ks := by
  have hswap : (fresh ks k).Perm
      (ks.take ((ks.idxOf k + 1) % ks.length) ++ ks.drop ((ks.idxOf k + 1) % ks.length)) :=
    List.perm_append_comm
  rwa [List.take_append_drop] at hswap

/-- **The next cycle begins with another member**, if there is one. -/
theorem fresh_head_ne {ks : List K} (hks : ks.Nodup) {k : K} (hk : k ∈ ks) (hlen : 1 < ks.length) :
    (fresh ks k).head? ≠ some k := by
  have hindex : ks.idxOf k < ks.length := List.idxOf_lt_length_of_mem hk
  set i := (ks.idxOf k + 1) % ks.length with hi
  have hlt : i < ks.length := Nat.mod_lt _ (by omega)
  have hne : i ≠ ks.idxOf k := by
    rcases Nat.lt_or_ge (ks.idxOf k + 1) ks.length with h | h
    · rw [hi, Nat.mod_eq_of_lt h]
      omega
    · rw [hi, show ks.idxOf k + 1 = ks.length by omega, Nat.mod_self]
      omega
  have hhead : (fresh ks k).head? = some ks[i] := by
    rw [fresh, ← hi, List.drop_eq_getElem_cons hlt]
    rfl
  rw [hhead]
  intro heq
  have hback := hks.idxOf_getElem i hlt
  rw [Option.some.inj heq] at hback
  exact hne hback.symm

end Rotation
