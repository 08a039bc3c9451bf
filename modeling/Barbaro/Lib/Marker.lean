import Mathlib.Data.List.Infix
import Mathlib.Data.List.Basic

/-!
# Searching for a marker

A marker is a word whose first letter does not come again in it, as an escape sequence is
one. Two of its occurrences never overlap, so a text that is cut has a marker across the
cut or has it in one of the parts.

* `indexOf_eq_none`, `indexOf_marker`: what the search finds.
* `marker_free_append`: part of a marker at the end of a text is none.
-/

namespace Marker

variable {α : Type} {e : α} {rest a : List α}

/-- A marker does not start inside a text and end past it, where another one starts. -/
theorem not_prefix_across (he : e ∉ rest) {b : List α} (hne : a ≠ []) (hlong : a.length < (e :: rest).length)
    {y : List α} (hy : y ≠ []) (hpre : y <+: e :: rest) : ¬ e :: rest <+: a ++ (y ++ b) := by
  rintro ⟨r, hr⟩
  cases a with
  | nil => exact hne rfl
  | cons v a =>
    cases y with
    | nil => exact hy rfl
    | cons w y =>
      rw [List.cons_prefix_cons] at hpre
      obtain ⟨rfl, -⟩ := hpre
      rw [List.cons_append, List.cons_append, List.cons.injEq] at hr
      have hget := congrArg (fun l => l[a.length]?) hr.2
      simp only [List.length_cons] at hlong
      simp only [List.cons_append, List.getElem?_append_right (Nat.le_refl a.length), Nat.sub_self,
        List.getElem?_cons_zero, List.getElem?_append_left (show a.length < rest.length by omega)] at hget
      exact he (List.mem_of_getElem? hget)

/-- **A text without the marker** stays without it when part of a marker follows. -/
theorem marker_free_append (he : e ∉ rest) (ha : ¬ e :: rest <:+: a) {y : List α} (hpre : y <+: e :: rest)
    (hne : y ≠ e :: rest) : ¬ e :: rest <:+: a ++ y := by
  have hshort : y.length < (e :: rest).length := by
    rcases Nat.lt_or_ge y.length (e :: rest).length with hlt | hge
    · exact hlt
    · exact absurd (hpre.eq_of_length_le hge) hne
  induction a with
  | nil =>
    intro h
    have := h.length_le
    rw [List.nil_append] at this
    omega
  | cons v a ih =>
    intro h
    rw [List.cons_append, List.infix_cons_iff] at h
    rcases h with h | h
    · rcases Nat.lt_or_ge (v :: a).length (e :: rest).length with hlong | hin
      · rcases eq_or_ne y [] with rfl | hy
        · have := h.length_le
          simp only [List.append_nil] at this
          omega
        · refine not_prefix_across he (b := []) (List.cons_ne_nil v a) hlong hy hpre ?_
          rwa [List.append_nil]
      · exact ha (List.prefix_of_prefix_length_le h ⟨y, rfl⟩ hin).isInfix
    · exact ih (fun hin => ha (List.infix_cons hin)) h

/-- Letters that do not begin a marker, before a text without one, give none. -/
theorem marker_free_front (ha : ∀ u ∈ a, u ≠ e) {b : List α} (hb : ¬ e :: rest <:+: b) : ¬ e :: rest <:+: a ++ b := by
  induction a with
  | nil => exact hb
  | cons v a ih =>
    intro h
    rw [List.cons_append, List.infix_cons_iff] at h
    rcases h with h | h
    · exact ha v List.mem_cons_self (List.cons_prefix_cons.1 h).1.symm
    · exact ih (fun u hu => ha u (List.mem_cons_of_mem _ hu)) h

variable [DecidableEq α]

/-- The place of the first occurrence of a word. -/
def indexOf (word : List α) : List α → Option ℕ
  | [] => if word = [] then some 0 else none
  | u :: us => if word.isPrefixOf (u :: us) then some 0 else (indexOf word us).map (· + 1)

theorem indexOf_eq_none {word text : List α} : indexOf word text = none ↔ ¬ word <:+: text := by
  induction text with
  | nil =>
    rw [List.infix_nil, indexOf]
    split_ifs with h <;> simp [h]
  | cons u us ih =>
    rw [indexOf, List.infix_cons_iff]
    split_ifs with h
    · simp [List.isPrefixOf_iff_prefix.1 h]
    · rw [Option.map_eq_none_iff, ih, not_or]
      exact ⟨fun hus => ⟨fun hpre => h (List.isPrefixOf_iff_prefix.2 hpre), hus⟩, fun hboth => hboth.2⟩

/-- What is found stands at its place. -/
theorem indexOf_eq_some {word text : List α} {i : ℕ} (h : indexOf word text = some i) :
    text.take i ++ (word ++ text.drop (i + word.length)) = text := by
  induction text generalizing i with
  | nil =>
    rw [indexOf] at h
    split_ifs at h with hword
    rw [hword]
    simp
  | cons u us ih =>
    rw [indexOf] at h
    split_ifs at h with hpre
    · cases h
      obtain ⟨r, hr⟩ := List.isPrefixOf_iff_prefix.1 hpre
      rw [← hr]
      simp
    · obtain ⟨j, hj, rfl⟩ := Option.map_eq_some_iff.1 h
      have hplace : j + 1 + word.length = j + word.length + 1 := by omega
      rw [hplace, List.take_succ_cons, List.drop_succ_cons, List.cons_append, ih hj]

/-- **The first marker** is found where the text before it ends. -/
theorem indexOf_marker (he : e ∉ rest) (ha : ¬ e :: rest <:+: a) (b : List α) :
    indexOf (e :: rest) (a ++ (e :: rest ++ b)) = some a.length := by
  induction a with
  | nil =>
    rw [List.nil_append, List.cons_append, indexOf, if_pos]
    · rfl
    · exact List.isPrefixOf_iff_prefix.2 ⟨b, rfl⟩
  | cons v a ih =>
    rw [List.cons_append, indexOf, if_neg, ih fun hin => ha (List.infix_cons hin), Option.map_some,
      List.length_cons]
    intro h
    have hpre := List.isPrefixOf_iff_prefix.1 h
    rcases Nat.lt_or_ge (v :: a).length (e :: rest).length with hlong | hin
    · exact not_prefix_across he (List.cons_ne_nil v a) hlong (List.cons_ne_nil e rest) (List.prefix_refl _) hpre
    · exact ha (List.prefix_of_prefix_length_le hpre ⟨_, rfl⟩ hin).isInfix

end Marker
