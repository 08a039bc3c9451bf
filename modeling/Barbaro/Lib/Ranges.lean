import Mathlib.Data.List.Sort
import Mathlib.Tactic.Common

/-!
# Sets of positions as lists of ranges

A list of half-open ranges of natural numbers stands for the set of positions in it.

* `merge`: the ranges sorted and joined where they overlap or touch.
* `covers_merge`: merging does not change which positions are covered.
* `merge_separated`: the result is separated: sorted, with a gap between any two ranges.
* `separated_ext`: separated lists of nonempty ranges that cover the same positions are
  equal, so a merge changes a separated list exactly if it adds a position
  (`merge_eq_left_iff`).
* `merge_congr`: a merge depends only on which ranges are given, and `merge_merge_append`:
  it may be done in steps.
* `merge_length_le`: no list that covers the same positions is shorter than the merge.
-/

namespace Ranges

/-- The positions from `start` up to, but not including, `stop`. -/
structure Range where
  start : ℕ
  stop : ℕ
  deriving DecidableEq, Repr

/-- A position is in one of the ranges. -/
def Covers (rs : List Range) (b : ℕ) : Prop := ∃ r ∈ rs, r.start ≤ b ∧ b < r.stop

@[simp] theorem not_covers_nil (b : ℕ) : ¬ Covers [] b := by simp [Covers]

theorem covers_cons {r : Range} {rs : List Range} {b : ℕ} :
    Covers (r :: rs) b ↔ (r.start ≤ b ∧ b < r.stop) ∨ Covers rs b := by
  simp [Covers]

theorem covers_append {rs ss : List Range} {b : ℕ} :
    Covers (rs ++ ss) b ↔ Covers rs b ∨ Covers ss b := by
  simp only [Covers, List.mem_append, or_and_right, exists_or]

theorem covers_perm {rs ss : List Range} (h : rs.Perm ss) (b : ℕ) : Covers rs b ↔ Covers ss b := by
  simp only [Covers, h.mem_iff]

/-! ## Merging -/

/-- The order of `sort((a, b) => a.start - b.start || a.end - b.end)`. -/
def Before (a b : Range) : Prop := a.start < b.start ∨ (a.start = b.start ∧ a.stop ≤ b.stop)

instance : DecidableRel Before := fun a b => by unfold Before; infer_instance

instance : Std.Total Before := ⟨fun a b => by unfold Before; omega⟩
instance : IsTrans Range Before := ⟨fun a b c => by unfold Before; omega⟩

/-- Join a range with the ones after it that it reaches. -/
def coalesce (p : Range) : List Range → List Range
  | [] => [p]
  | r :: rs =>
    if r.start ≤ p.stop then coalesce ⟨p.start, max p.stop r.stop⟩ rs else p :: coalesce r rs

/-- The ranges sorted and joined where they overlap or touch. -/
def merge (rs : List Range) : List Range :=
  match rs.insertionSort Before with
  | [] => []
  | p :: rs => coalesce p rs

/-- Ranges that are not inverted, in order, with a gap between any two. -/
def Separated (rs : List Range) : Prop :=
  (∀ r ∈ rs, r.start ≤ r.stop) ∧ rs.Pairwise (fun a b => a.stop < b.start)

/-- Ranges that are not inverted, sorted by start. -/
def Ascending (rs : List Range) : Prop :=
  (∀ r ∈ rs, r.start ≤ r.stop) ∧ rs.Pairwise (fun a b => a.start ≤ b.start)

theorem Ascending.tail {p : Range} {rs : List Range} (h : Ascending (p :: rs)) : Ascending rs :=
  ⟨fun r hr => h.1 r (by simp [hr]), (List.pairwise_cons.1 h.2).2⟩

/-- The range that two ranges are joined to takes the place of the first. -/
theorem Ascending.join {p r : Range} {rs : List Range} (h : Ascending (p :: r :: rs)) :
    Ascending (⟨p.start, max p.stop r.stop⟩ :: rs) := by
  obtain ⟨h1, h2⟩ := h
  have hp := h1 p (by simp)
  rw [List.pairwise_cons] at h2
  refine ⟨fun s hs => ?_, List.pairwise_cons.2 ⟨fun s hs => ?_, (List.pairwise_cons.1 h2.2).2⟩⟩
  · rcases List.mem_cons.1 hs with rfl | hs
    · exact le_trans hp (le_max_left _ _)
    · exact h1 s (by simp [hs])
  · exact h2.1 s (by simp [hs])

theorem covers_coalesce {p : Range} {rs : List Range} (h : Ascending (p :: rs)) (b : ℕ) :
    Covers (coalesce p rs) b ↔ Covers (p :: rs) b := by
  induction rs generalizing p with
  | nil => rfl
  | cons r rs ih =>
    have hp := h.1 p (by simp)
    have hr := h.1 r (by simp)
    have hpr := (List.pairwise_cons.1 h.2).1 r (by simp)
    rw [coalesce]
    split
    · next hreach =>
      rw [ih h.join]
      simp only [covers_cons]
      constructor
      · rintro (⟨h1, h2⟩ | hc)
        · by_cases hb : b < p.stop
          · exact .inl ⟨h1, hb⟩
          · exact .inr (.inl ⟨by omega, by omega⟩)
        · exact .inr (.inr hc)
      · rintro (⟨h1, h2⟩ | ⟨h1, h2⟩ | hc)
        · exact .inl ⟨h1, by omega⟩
        · exact .inl ⟨by omega, by omega⟩
        · exact .inr hc
    · rw [covers_cons, covers_cons, ih h.tail]

theorem coalesce_separated {p : Range} {rs : List Range} (h : Ascending (p :: rs)) :
    Separated (coalesce p rs) ∧ ∀ r ∈ coalesce p rs, p.start ≤ r.start := by
  induction rs generalizing p with
  | nil =>
    have hp := h.1 p (by simp)
    simpa [coalesce, Separated] using hp
  | cons r rs ih =>
    have hpr := (List.pairwise_cons.1 h.2).1 r (by simp)
    rw [coalesce]
    split
    · exact ih h.join
    · next hgap =>
      obtain ⟨⟨h1, h2⟩, h3⟩ := ih h.tail
      refine ⟨⟨fun s hs => ?_, List.pairwise_cons.2 ⟨fun s hs => ?_, h2⟩⟩, fun s hs => ?_⟩
      · rcases List.mem_cons.1 hs with rfl | hs
        · exact h.1 _ (by simp)
        · exact h1 s hs
      · exact lt_of_lt_of_le (by omega) (h3 s hs)
      · rcases List.mem_cons.1 hs with rfl | hs
        · exact le_rfl
        · exact le_trans hpr (h3 s hs)

theorem ascending_sorted {rs : List Range} (h : ∀ r ∈ rs, r.start ≤ r.stop) :
    Ascending (rs.insertionSort Before) := by
  refine ⟨fun r hr => h r ((List.mem_insertionSort Before).1 hr), ?_⟩
  refine (List.pairwise_insertionSort Before rs).imp ?_
  intro a b hab
  rcases hab with h | h <;> omega

/-- **Merging changes no position.** -/
theorem covers_merge {rs : List Range} (h : ∀ r ∈ rs, r.start ≤ r.stop) (b : ℕ) :
    Covers (merge rs) b ↔ Covers rs b := by
  have ha := ascending_sorted h
  rw [← covers_perm (List.perm_insertionSort Before rs) b, merge]
  cases hs : rs.insertionSort Before with
  | nil => rfl
  | cons p ps => exact covers_coalesce (hs ▸ ha) b

/-- **The result of a merge is separated.** -/
theorem merge_separated {rs : List Range} (h : ∀ r ∈ rs, r.start ≤ r.stop) :
    Separated (merge rs) := by
  have ha := ascending_sorted h
  rw [merge]
  cases hs : rs.insertionSort Before with
  | nil => exact ⟨by simp, List.Pairwise.nil⟩
  | cons p ps => exact (coalesce_separated (hs ▸ ha)).1

theorem merge_ne_nil {rs : List Range} (h : rs ≠ []) : merge rs ≠ [] := by
  rw [merge]
  cases hs : rs.insertionSort Before with
  | nil =>
    have := List.length_insertionSort Before rs
    rw [hs] at this
    exact absurd (List.eq_nil_of_length_eq_zero this.symm) h
  | cons p ps =>
    have key : ∀ (ps : List Range) (p : Range), coalesce p ps ≠ [] := by
      intro ps
      induction ps with
      | nil => simp [coalesce]
      | cons r rs ih =>
        intro p
        rw [coalesce]
        split
        · exact ih _
        · simp
    exact key ps p

/-- No range of the result starts before, or ends after, all the given ones. -/
theorem merge_within {rs : List Range} {n : ℕ} (h : ∀ r ∈ rs, r.stop ≤ n) :
    ∀ r ∈ merge rs, r.stop ≤ n := by
  have key : ∀ (ps : List Range) (p : Range), (∀ r ∈ p :: ps, r.stop ≤ n) →
      ∀ r ∈ coalesce p ps, r.stop ≤ n := by
    intro ps
    induction ps with
    | nil => intro p hp; simpa [coalesce] using hp
    | cons r rs ih =>
      intro p hp
      have hpn := hp p (by simp)
      have hrn := hp r (by simp)
      rw [coalesce]
      split
      · refine ih _ (fun s hs => ?_)
        rcases List.mem_cons.1 hs with rfl | hs
        · exact max_le hpn hrn
        · exact hp s (by simp [hs])
      · intro s hs
        rcases List.mem_cons.1 hs with rfl | hs
        · exact hpn
        · exact ih r (fun t ht => hp t (List.mem_cons_of_mem _ ht)) s hs
  rw [merge]
  cases hs : rs.insertionSort Before with
  | nil => simp
  | cons p ps =>
    refine key ps p (fun r hr => h r ?_)
    rw [← hs] at hr
    exact (List.mem_insertionSort Before).1 hr

/-! ## Separated lists -/

/-- Every range has a position. -/
def Inhabited (rs : List Range) : Prop := ∀ r ∈ rs, r.start < r.stop

theorem Separated.tail {r : Range} {rs : List Range} (h : Separated (r :: rs)) : Separated rs :=
  ⟨fun s hs => h.1 s (by simp [hs]), (List.pairwise_cons.1 h.2).2⟩

/-- The positions of the later ranges are beyond a gap after the first. -/
theorem Separated.covers_tail {r : Range} {rs : List Range} (h : Separated (r :: rs)) {b : ℕ}
    (hb : Covers rs b) : r.stop < b := by
  obtain ⟨s, hs, h1, -⟩ := hb
  have := (List.pairwise_cons.1 h.2).1 s hs
  omega

/-- **Separated lists of nonempty ranges are determined by their positions.** -/
theorem separated_ext {rs ss : List Range} (hr : Separated rs) (hs : Separated ss)
    (hri : Inhabited rs) (hsi : Inhabited ss) (h : ∀ b, Covers rs b ↔ Covers ss b) : rs = ss := by
  induction rs generalizing ss with
  | nil =>
    cases ss with
    | nil => rfl
    | cons s ss =>
      have := hsi s (by simp)
      exact absurd ((h s.start).2 (covers_cons.2 (.inl ⟨le_rfl, this⟩))) (not_covers_nil _)
  | cons r rs ih =>
    cases ss with
    | nil =>
      have := hri r (by simp)
      exact absurd ((h r.start).1 (covers_cons.2 (.inl ⟨le_rfl, this⟩))) (not_covers_nil _)
    | cons s ss =>
      have hr0 := hri r (by simp)
      have hs0 := hsi s (by simp)
      have cr : ∀ b, Covers rs b → r.stop < b := fun b => hr.covers_tail
      have cs : ∀ b, Covers ss b → s.stop < b := fun b => hs.covers_tail
      simp only [covers_cons] at h
      -- the first positions agree, and so do the first positions that are missing
      have hstart : r.start = s.start := by
        have h1 := (h r.start).1 (.inl ⟨le_rfl, hr0⟩)
        have h2 := (h s.start).2 (.inl ⟨le_rfl, hs0⟩)
        rcases h1 with h1 | h1 <;> rcases h2 with h2 | h2
        · omega
        · have := cr _ h2; omega
        · have := cs _ h1; omega
        · have := cr _ h2; have := cs _ h1; omega
      have hstop : r.stop = s.stop := by
        rcases Nat.lt_trichotomy r.stop s.stop with hlt | heq | hgt
        · have h1 := (h r.stop).2 (.inl ⟨by omega, hlt⟩)
          rcases h1 with h1 | h1
          · omega
          · have := cr _ h1; omega
        · exact heq
        · have h1 := (h s.stop).1 (.inl ⟨by omega, hgt⟩)
          rcases h1 with h1 | h1
          · omega
          · have := cs _ h1; omega
      have hrs : r = s := by cases r; cases s; simp_all
      subst hrs
      rw [ih hr.tail hs.tail (fun t ht => hri t (by simp [ht])) (fun t ht => hsi t (by simp [ht]))]
      intro b
      have hb := h b
      constructor
      · intro hc
        have := cr b hc
        rcases hb.1 (.inr hc) with h1 | h1
        · omega
        · exact h1
      · intro hc
        have := cs b hc
        rcases hb.2 (.inr hc) with h1 | h1
        · omega
        · exact h1

/-- A range of a merge is nonempty if every given one is. -/
theorem merge_inhabited {rs : List Range} (h : Inhabited rs) : Inhabited (merge rs) := by
  have key : ∀ (ps : List Range) (p : Range), Inhabited (p :: ps) → Inhabited (coalesce p ps) := by
    intro ps
    induction ps with
    | nil => intro p hp; exact hp
    | cons r rs ih =>
      intro p hp
      have hp0 := hp p (by simp)
      rw [coalesce]
      split
      · refine ih _ (fun s hs => ?_)
        rcases List.mem_cons.1 hs with rfl | hs
        · exact lt_of_lt_of_le hp0 (le_max_left _ _)
        · exact hp s (by simp [hs])
      · intro s hs
        rcases List.mem_cons.1 hs with rfl | hs
        · exact hp0
        · exact ih r (fun t ht => hp t (List.mem_cons_of_mem _ ht)) s hs
  intro r hr
  rw [merge] at hr
  cases hs : rs.insertionSort Before with
  | nil => rw [hs] at hr; cases hr
  | cons p ps =>
    rw [hs] at hr
    refine key ps p (fun q hq => h q ?_) r hr
    rw [← hs] at hq
    exact (List.mem_insertionSort Before).1 hq

/-- **A merge keeps a separated list exactly if it adds no position.** -/
theorem merge_eq_left_iff {rs ss : List Range} (hr : Separated rs) (hri : Inhabited rs)
    (hsi : Inhabited ss) : merge (rs ++ ss) = rs ↔ ∀ b, Covers ss b → Covers rs b := by
  have hle : ∀ r ∈ rs ++ ss, r.start ≤ r.stop := by
    intro r hm
    rcases List.mem_append.1 hm with hm | hm
    · exact le_of_lt (hri r hm)
    · exact le_of_lt (hsi r hm)
  constructor
  · intro he b hb
    rw [← he, covers_merge hle, covers_append]
    exact .inr hb
  · intro h
    refine separated_ext (merge_separated hle) hr (merge_inhabited ?_) hri (fun b => ?_)
    · intro r hm
      rcases List.mem_append.1 hm with hm | hm
      · exact hri r hm
      · exact hsi r hm
    · rw [covers_merge hle, covers_append]
      exact ⟨fun hc => hc.elim id (h b), .inl⟩

/-! ## Order, grouping and number -/

/-- The range with its bounds as two of the half-open range of twice the size: empty
ranges become nonempty, and ranges touch exactly if they did. -/
def Range.double (r : Range) : Range := ⟨2 * r.start, 2 * r.stop + 1⟩

theorem Range.double_injective : Function.Injective Range.double := by
  intro a b h
  cases a
  cases b
  simp only [Range.double, Range.mk.injEq] at h ⊢
  omega

theorem before_double (a b : Range) : Before a b ↔ Before a.double b.double := by
  simp only [Before, Range.double]
  omega

theorem double_coalesce (p : Range) (rs : List Range) :
    (coalesce p rs).map Range.double = coalesce p.double (rs.map Range.double) := by
  induction rs generalizing p with
  | nil => rfl
  | cons r rs ih =>
    rw [coalesce, List.map_cons, coalesce]
    by_cases h : r.start ≤ p.stop
    · have hd : r.double.start ≤ p.double.stop := by simp only [Range.double]; omega
      have hj : Range.double ⟨p.start, max p.stop r.stop⟩ =
          ⟨p.double.start, max p.double.stop r.double.stop⟩ := by
        simp only [Range.double, Range.mk.injEq, true_and]
        omega
      rw [if_pos h, if_pos hd, ih, hj]
    · have hd : ¬ r.double.start ≤ p.double.stop := by simp only [Range.double]; omega
      rw [if_neg h, if_neg hd, List.map_cons, ih]

theorem double_merge (rs : List Range) :
    (merge rs).map Range.double = merge (rs.map Range.double) := by
  have hsort := List.map_insertionSort Before Before Range.double rs
    (fun a _ b _ => before_double a b)
  rw [merge, merge, ← hsort]
  cases rs.insertionSort Before with
  | nil => rfl
  | cons p ps => exact double_coalesce p ps

theorem double_le {rs : List Range} (h : ∀ r ∈ rs, r.start ≤ r.stop) :
    Inhabited (rs.map Range.double) := by
  intro r hr
  obtain ⟨s, hs, rfl⟩ := List.mem_map.1 hr
  have := h s hs
  simp only [Range.double]
  omega

/-- Merges are equal if they cover the same positions at twice the size. -/
theorem merge_ext {rs ss : List Range} (hr : ∀ r ∈ rs, r.start ≤ r.stop)
    (hs : ∀ r ∈ ss, r.start ≤ r.stop)
    (h : ∀ b, Covers (rs.map Range.double) b ↔ Covers (ss.map Range.double) b) :
    merge rs = merge ss := by
  have hr' := double_le hr
  have hs' := double_le hs
  have hrle : ∀ r ∈ rs.map Range.double, r.start ≤ r.stop := fun r hm => le_of_lt (hr' r hm)
  have hsle : ∀ r ∈ ss.map Range.double, r.start ≤ r.stop := fun r hm => le_of_lt (hs' r hm)
  refine Range.double_injective.list_map ?_
  rw [double_merge, double_merge]
  refine separated_ext (merge_separated hrle) (merge_separated hsle) (merge_inhabited hr')
    (merge_inhabited hs') (fun b => ?_)
  rw [covers_merge hrle, covers_merge hsle, h]

/-- **A merge depends only on which ranges are given**, not on their order or number. -/
theorem merge_congr {rs ss : List Range} (hr : ∀ r ∈ rs, r.start ≤ r.stop)
    (h : ∀ r, r ∈ rs ↔ r ∈ ss) : merge rs = merge ss := by
  refine merge_ext hr (fun r hm => hr r ((h r).2 hm)) (fun b => ?_)
  simp only [Covers, List.mem_map, h]

theorem covers_double_merge {rs : List Range} (h : ∀ r ∈ rs, r.start ≤ r.stop) (b : ℕ) :
    Covers ((merge rs).map Range.double) b ↔ Covers (rs.map Range.double) b := by
  have hle : ∀ r ∈ rs.map Range.double, r.start ≤ r.stop :=
    fun r hm => le_of_lt (double_le h r hm)
  rw [double_merge, covers_merge hle]

/-- **A merge may be done in steps.** -/
theorem merge_merge_append {rs ss : List Range} (hr : ∀ r ∈ rs, r.start ≤ r.stop)
    (hs : ∀ r ∈ ss, r.start ≤ r.stop) : merge (merge rs ++ ss) = merge (rs ++ ss) := by
  have hle : ∀ {ts : List Range}, (∀ r ∈ ts, r.start ≤ r.stop) → ∀ r ∈ ts ++ ss, r.start ≤ r.stop := by
    intro ts ht r hm
    exact (List.mem_append.1 hm).elim (ht r) (hs r)
  refine merge_ext (hle (merge_separated hr).1) (hle hr) (fun b => ?_)
  rw [List.map_append, List.map_append, covers_append, covers_append, covers_double_merge hr]

/-! ## The shortest list -/

theorem Separated.starts_nodup {rs : List Range} (h : Separated rs) : (rs.map (·.start)).Nodup := by
  obtain ⟨hle, hsep⟩ := h
  induction rs with
  | nil => simp
  | cons r rs ih =>
    rw [List.pairwise_cons] at hsep
    rw [List.map_cons, List.nodup_cons]
    refine ⟨fun hm => ?_, ih (fun s hs => hle s (by simp [hs])) hsep.2⟩
    obtain ⟨s, hs, heq⟩ := List.mem_map.1 hm
    have h1 := hsep.1 s hs
    have h2 := hle r (by simp)
    omega

/-- The position before a range of a separated list is not covered. -/
theorem Separated.gap {rs : List Range} (h : Separated rs) {r : Range} (hr : r ∈ rs) {b : ℕ}
    (hb : b + 1 = r.start) : ¬ Covers rs b := by
  induction rs with
  | nil => cases hr
  | cons s rs ih =>
    rw [covers_cons]
    rcases List.mem_cons.1 hr with rfl | hr
    · rintro (⟨h1, -⟩ | hc)
      · omega
      · have h1 := h.covers_tail hc
        have h2 := h.1 r (by simp)
        omega
    · have h1 := (List.pairwise_cons.1 h.2).1 r hr
      rintro (⟨-, h2⟩ | hc)
      · omega
      · exact ih h.tail hr hc

/-- **No list that covers the same positions is shorter.** -/
theorem Separated.length_le {rs ss : List Range} (h : Separated rs) (hi : Inhabited rs)
    (hc : ∀ b, Covers rs b ↔ Covers ss b) : rs.length ≤ ss.length := by
  -- every range of the one list starts where a range of the other starts
  have hsub : rs.map (·.start) ⊆ ss.map (·.start) := by
    intro b hb
    obtain ⟨r, hr, rfl⟩ := List.mem_map.1 hb
    obtain ⟨s, hs, h1, h2⟩ := (hc r.start).1 ⟨r, hr, le_rfl, hi r hr⟩
    refine List.mem_map.2 ⟨s, hs, ?_⟩
    by_contra hne
    have hgap := h.gap hr (b := r.start - 1) (by omega)
    exact hgap ((hc _).2 ⟨s, hs, by omega, by omega⟩)
  have := (List.subperm_of_subset h.starts_nodup hsub).length_le
  simpa using this

end Ranges
