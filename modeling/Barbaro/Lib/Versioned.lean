import Mathlib.Data.Set.Lattice
import Mathlib.Logic.Function.Basic

/-!
# Sets that are collected for the last version of a key

A book holds for each key one version and the set of elements collected for it. An item
brings elements of one version of a key: it joins the elements held if the version is
the one held, and takes their place if it is not.

* `mem_putAll`: an element held for a version was put for that version, or held before.
* `putAll_single`: while a key has one version, the book holds the union of what was put.
* `putAll_congr`: so the order, the grouping and the number of the items do not matter.
-/

namespace Versioned

variable {K V α : Type*}

/-- Elements of one version of a key. -/
structure Item (K V α : Type*) where
  key : K
  version : V
  elems : Set α

/-- For each key the version held and its elements. -/
abbrev Book (K V α : Type*) := K → Option (V × Set α)

/-- The book holds this element for this version of the key. -/
def Holds (book : Book K V α) (k : K) (v : V) (a : α) : Prop :=
  ∃ s, book k = some (v, s) ∧ a ∈ s

/-- Some of the items bring this element for this version of the key. -/
def Brings (items : List (Item K V α)) (k : K) (v : V) (a : α) : Prop :=
  ∃ i ∈ items, i.key = k ∧ i.version = v ∧ a ∈ i.elems

variable [DecidableEq V]

/-- The elements held for the key after the item. -/
def joined (held : Option (V × Set α)) (i : Item K V α) : Set α :=
  match held with
  | some (v, s) => if v = i.version then s ∪ i.elems else i.elems
  | none => i.elems

theorem mem_joined {held : Option (V × Set α)} {i : Item K V α} {a : α} (h : a ∈ joined held i) :
    a ∈ i.elems ∨ ∃ s, held = some (i.version, s) ∧ a ∈ s := by
  unfold joined at h
  split at h
  · next v s =>
    split at h
    · next hv => exact h.elim (fun hs => .inr ⟨s, by rw [hv], hs⟩) .inl
    · exact .inl h
  · exact .inl h

variable [DecidableEq K]

def put (book : Book K V α) (i : Item K V α) : Book K V α :=
  Function.update book i.key (some (i.version, joined (book i.key) i))

def putAll (book : Book K V α) (items : List (Item K V α)) : Book K V α := items.foldl put book

@[simp] theorem putAll_nil (book : Book K V α) : putAll book [] = book := rfl

@[simp] theorem putAll_cons (book : Book K V α) (i : Item K V α) (is : List (Item K V α)) :
    putAll book (i :: is) = putAll (put book i) is := rfl

theorem put_self (book : Book K V α) (i : Item K V α) :
    put book i i.key = some (i.version, joined (book i.key) i) := by
  simp [put]

theorem put_other {k : K} {book : Book K V α} {i : Item K V α} (h : i.key ≠ k) :
    put book i k = book k := by
  simp [put, Function.update_of_ne (Ne.symm h)]

/-! ## Versions are never mixed -/

/-- **An element held for a version was put for that version, or held for it before.** -/
theorem mem_putAll {book : Book K V α} {items : List (Item K V α)} {k : K} {v : V} {a : α}
    (h : Holds (putAll book items) k v a) : Holds book k v a ∨ Brings items k v a := by
  induction items generalizing book with
  | nil => exact .inl h
  | cons i is ih =>
    rw [putAll_cons] at h
    rcases ih h with ⟨s, hs, ha⟩ | ⟨j, hj, hb⟩
    · by_cases hk : i.key = k
      · subst hk
        rw [put_self, Option.some.injEq, Prod.mk.injEq] at hs
        obtain ⟨rfl, rfl⟩ := hs
        rcases mem_joined ha with ha | ⟨s, hs, ha⟩
        · exact .inr ⟨i, by simp, rfl, rfl, ha⟩
        · exact .inl ⟨s, hs, ha⟩
      · rw [put_other hk] at hs
        exact .inl ⟨s, hs, ha⟩
    · exact .inr ⟨j, List.mem_cons_of_mem _ hj, hb⟩

/-! ## One version -/

/-- Nothing is held or put under the key but for this version. -/
structure Single (book : Book K V α) (items : List (Item K V α)) (k : K) (v : V) : Prop where
  held : ∀ w s, book k = some (w, s) → w = v
  put : ∀ i ∈ items, i.key = k → i.version = v

theorem Single.cons {book : Book K V α} {i : Item K V α} {is : List (Item K V α)} {k : K} {v : V}
    (h : Single book (i :: is) k v) : Single (Versioned.put book i) is k v := by
  refine ⟨fun w s hs => ?_, fun j hj => h.put j (List.mem_cons_of_mem _ hj)⟩
  by_cases hk : i.key = k
  · have hv := h.put i (by simp) hk
    subst hk
    rw [put_self, Option.some.injEq, Prod.mk.injEq] at hs
    rw [← hs.1, hv]
  · rw [put_other hk] at hs
    exact h.held w s hs

/-- The key is present exactly if it was, or an item brings it. -/
theorem putAll_isSome {book : Book K V α} {items : List (Item K V α)} {k : K} :
    (putAll book items k).isSome ↔ (book k).isSome ∨ ∃ i ∈ items, i.key = k := by
  induction items generalizing book with
  | nil => simp
  | cons i is ih =>
    rw [putAll_cons, ih]
    by_cases hk : i.key = k
    · subst hk
      simp [put_self]
    · simp [put_other hk, hk]

/-- **While a key has one version, the book holds the union of what was put.** -/
theorem putAll_single {book : Book K V α} {items : List (Item K V α)} {k : K} {v : V}
    (h : Single book items k v) (a : α) :
    Holds (putAll book items) k v a ↔ Holds book k v a ∨ Brings items k v a := by
  refine ⟨mem_putAll, fun hm => ?_⟩
  induction items generalizing book with
  | nil =>
    rcases hm with hm | ⟨i, hi, -⟩
    · exact hm
    · cases hi
  | cons i is ih =>
    rw [putAll_cons]
    refine ih h.cons ?_
    by_cases hk : i.key = k
    · have hv := h.put i (by simp) hk
      subst hk
      have hself : ∀ b, b ∈ joined (book i.key) i → Holds (put book i) i.key v b :=
        fun b hb => ⟨_, by rw [put_self, hv], hb⟩
      rcases hm with ⟨s, hs, ha⟩ | ⟨j, hj, hjk, hjv, ha⟩
      · refine .inl (hself a ?_)
        unfold joined
        rw [hs]
        simp [hv, ha]
      · rcases List.mem_cons.1 hj with rfl | hj
        · refine .inl (hself a ?_)
          unfold joined
          split
          · split
            · exact .inr ha
            · exact ha
          · exact ha
        · exact .inr ⟨j, hj, hjk, hjv, ha⟩
    · rcases hm with ⟨s, hs, ha⟩ | ⟨j, hj, hjk, hjv, ha⟩
      · exact .inl ⟨s, by rw [put_other hk]; exact hs, ha⟩
      · rcases List.mem_cons.1 hj with rfl | hj
        · exact absurd hjk hk
        · exact .inr ⟨j, hj, hjk, hjv, ha⟩

/-- The version of the key stays the one it has. -/
theorem Single.putAll {book : Book K V α} {items : List (Item K V α)} {k : K} {v : V}
    (h : Single book items k v) : ∀ w s, Versioned.putAll book items k = some (w, s) → w = v := by
  induction items generalizing book with
  | nil => exact h.held
  | cons i is ih => exact ih h.cons

/-- **The order, the grouping and the number of the items do not matter.** -/
theorem putAll_congr {book : Book K V α} {is js : List (Item K V α)} {k : K} {v : V}
    (hi : Single book is k v) (hj : Single book js k v)
    (hb : ∀ a, Brings is k v a ↔ Brings js k v a)
    (hk : (∃ i ∈ is, i.key = k) ↔ ∃ j ∈ js, j.key = k) :
    putAll book is k = putAll book js k := by
  have hsome : (putAll book is k).isSome ↔ (putAll book js k).isSome := by
    rw [putAll_isSome, putAll_isSome, hk]
  have hmem : ∀ a, Holds (putAll book is) k v a ↔ Holds (putAll book js) k v a := by
    intro a
    rw [putAll_single hi, putAll_single hj, hb]
  cases h1 : putAll book is k with
  | none =>
    rw [h1] at hsome
    simp only [Option.isSome_none, Bool.false_eq_true, false_iff, Bool.not_eq_true,
      Option.isSome_eq_false_iff, Option.isNone_iff_eq_none] at hsome
    exact hsome.symm
  | some p =>
    obtain ⟨w, s⟩ := p
    rw [h1] at hsome
    obtain ⟨⟨w', s'⟩, h2⟩ := Option.isSome_iff_exists.1 (hsome.1 rfl)
    have hw := hi.putAll w s h1
    have hw' := hj.putAll w' s' h2
    subst hw hw'
    rw [h2]
    have hs : s = s' := by
      ext a
      have := hmem a
      simpa [Holds, h1, h2] using this
    rw [hs]

end Versioned
