import Mathlib.Data.List.Nodup

/-!
# Maps in the order of insertion

A map whose values carry their own keys, as the list of its values in the order in which their keys
were set first.

* `getBy`, `setBy`, `putBy`, `mapBy`: the value of a key, a value set, a value in place, the map of
  a list of values.
* `mapBy_eq`: the map of a list with one value a key is that list.
* `filter_putBy`, `getBy_filter`: the part of a map that meets a condition.
-/

namespace KeyedMap

variable {κ α : Type*} [DecidableEq κ] {key : α → κ}

def getBy (key : α → κ) (k : κ) (map : List α) : Option α := map.find? (key · = k)

/-- In place if the key is there, else at the end. -/
def setBy (key : α → κ) (value : α) : List α → List α
  | [] => [value]
  | v :: map => if key v = key value then value :: map else v :: setBy key value map

/-- The value takes the place of the one of its key, if there is one. -/
def putBy (key : α → κ) (value : α) (map : List α) : List α := map.map fun v => if key v = key value then value else v

/-- The map of the values: the last value of a key is the one that is there. -/
def mapBy (key : α → κ) (values : List α) : List α := values.foldl (fun map value => setBy key value map) []

/-! ## Keys -/

theorem keys_setBy (value : α) (map : List α) :
    (setBy key value map).map key =
      if key value ∈ map.map key then map.map key else map.map key ++ [key value] := by
  induction map with
  | nil => simp [setBy]
  | cons v map ih =>
    rw [setBy]
    by_cases h : key v = key value
    · rw [if_pos h]
      simp [h]
    · have hiff : key value ∈ (v :: map).map key ↔ key value ∈ map.map key := by
        rw [List.map_cons, List.mem_cons]
        exact ⟨fun hmem => hmem.resolve_left fun heq => h heq.symm, .inr⟩
      rw [if_neg h, List.map_cons, ih]
      by_cases hmem : key value ∈ map.map key
      · rw [if_pos hmem, if_pos (hiff.2 hmem), List.map_cons]
      · rw [if_neg hmem, if_neg (fun hcons => hmem (hiff.1 hcons)), List.map_cons, List.cons_append]

theorem nodup_setBy {value : α} {map : List α} (h : (map.map key).Nodup) : ((setBy key value map).map key).Nodup := by
  rw [keys_setBy]
  split
  · exact h
  · next hmem => exact List.nodup_append.2 ⟨h, List.nodup_singleton _, fun k hk k' hk' => by
      rw [List.mem_singleton.1 hk']
      exact fun heq => hmem (heq ▸ hk)⟩

theorem setBy_new {value : α} {map : List α} (h : key value ∉ map.map key) : setBy key value map = map ++ [value] := by
  induction map with
  | nil => rfl
  | cons v map ih =>
    simp only [List.map_cons, List.mem_cons, not_or] at h
    rw [setBy, if_neg (fun heq => h.1 heq.symm), ih h.2, List.cons_append]

/-- **The map of a list** with one value a key is the list. -/
theorem mapBy_eq {values : List α} (h : (values.map key).Nodup) : mapBy key values = values := by
  have hgo : ∀ seen rest : List α, ((seen ++ rest).map key).Nodup →
      rest.foldl (fun map value => setBy key value map) seen = seen ++ rest := by
    intro seen rest
    induction rest generalizing seen with
    | nil => simp
    | cons v rest ih =>
      intro hnodup
      have hnew : key v ∉ seen.map key := by
        rw [List.map_append, List.nodup_append] at hnodup
        exact fun hmem => hnodup.2.2 _ hmem _ (List.mem_map_of_mem List.mem_cons_self) rfl
      rw [List.foldl_cons, setBy_new hnew, ih (seen ++ [v]) (by simpa using hnodup)]
      simp
  exact hgo [] values h

/-- What the value has in common with the one it takes the place of stays as it was. -/
theorem map_putBy {β : Type*} {value : α} {map : List α} {f : α → β}
    (h : ∀ v ∈ map, key v = key value → f v = f value) : (putBy key value map).map f = map.map f := by
  rw [putBy, List.map_map]
  apply List.map_congr_left
  intro v hv
  simp only [Function.comp_apply]
  split
  · next heq => exact (h v hv heq).symm
  · rfl

theorem keys_putBy (value : α) (map : List α) : (putBy key value map).map key = map.map key :=
  map_putBy fun _ _ h => h

theorem mem_putBy {value v : α} {map : List α} (h : v ∈ putBy key value map) : v = value ∨ v ∈ map := by
  obtain ⟨w, hw, heq⟩ := List.mem_map.1 h
  split at heq
  · exact .inl heq.symm
  · exact .inr (heq ▸ hw)

/-! ## Values -/

theorem getBy_some {k : κ} {map : List α} {v : α} (h : getBy key k map = some v) : v ∈ map ∧ key v = k := by
  refine ⟨List.mem_of_find?_eq_some h, ?_⟩
  simpa using List.find?_some h

theorem getBy_none {k : κ} {map : List α} : getBy key k map = none ↔ k ∉ map.map key := by
  simp [getBy, List.find?_eq_none]

/-- In a map with one value a key, a value is the one of its key. -/
theorem getBy_mem {map : List α} (h : (map.map key).Nodup) {v : α} (hv : v ∈ map) : getBy key (key v) map = some v := by
  induction map with
  | nil => cases hv
  | cons w map ih =>
    rw [List.map_cons, List.nodup_cons] at h
    rw [getBy, List.find?_cons]
    by_cases heq : key w = key v
    · rcases List.mem_cons.1 hv with rfl | hv
      · simp
      · exact absurd (heq ▸ List.mem_map_of_mem hv) h.1
    · rcases List.mem_cons.1 hv with rfl | hv
      · exact absurd rfl heq
      · rw [decide_eq_false heq]
        exact ih h.2 hv

/-- A key has one value. -/
theorem getBy_only {map : List α} (h : (map.map key).Nodup) {k : κ} {v w : α} (hv : v ∈ map) (hkey : key v = k)
    (hw : getBy key k map = some w) : v = w := by
  have hget := getBy_mem h hv
  rw [hkey] at hget
  exact Option.some.inj (hget.symm.trans hw)

/-- The value that is put is the one of its key, if there was one. -/
theorem getBy_putBy {k : κ} {value : α} {map : List α} :
    getBy key k (putBy key value map) =
      if k = key value then (getBy key k map).map fun _ => value else getBy key k map := by
  induction map with
  | nil => simp [getBy, putBy]
  | cons v map ih =>
    unfold getBy putBy at ih ⊢
    rw [List.map_cons, List.find?_cons, List.find?_cons, ih]
    by_cases hv : key v = key value
    · rw [if_pos hv, hv]
      by_cases hk : k = key value
      · simp [hk]
      · rw [decide_eq_false (fun h => hk h.symm), if_neg hk]
    · rw [if_neg hv]
      by_cases hk : key v = k
      · have hne : k ≠ key value := fun h => hv (hk.trans h)
        simp [hk, hne]
      · rw [decide_eq_false hk]

/-! ## Parts of a map -/

/-- The part that meets a condition has the values that meet it. -/
theorem getBy_filter {map : List α} (h : (map.map key).Nodup) {p : α → Bool} {k : κ} :
    getBy key k (map.filter p) = (getBy key k map).filter p := by
  cases hget : getBy key k map with
  | none =>
    rw [Option.filter_none, getBy_none]
    rw [getBy_none] at hget
    intro hmem
    obtain ⟨v, hv, rfl⟩ := List.mem_map.1 hmem
    exact hget (List.mem_map_of_mem (List.mem_filter.1 hv).1)
  | some v =>
    obtain ⟨hv, rfl⟩ := getBy_some hget
    by_cases hp : p v = true
    · rw [Option.filter_some, if_pos hp]
      exact getBy_mem (h.sublist (List.filter_sublist.map key)) (List.mem_filter.2 ⟨hv, hp⟩)
    · rw [Option.filter_some, if_neg hp, getBy_none]
      intro hmem
      obtain ⟨w, hw, heq⟩ := List.mem_map.1 hmem
      have hget' := getBy_mem h (List.mem_filter.1 hw).1
      rw [heq, hget] at hget'
      cases hget'
      exact hp (List.mem_filter.1 hw).2

/-- A value that goes on meeting the condition is put into the part. -/
theorem filter_putBy {map : List α} {p : α → Bool} {value : α} (hvalue : p value = true)
    (hmap : ∀ v ∈ map, key v = key value → p v = true) : (putBy key value map).filter p = putBy key value (map.filter p) := by
  induction map with
  | nil => rfl
  | cons v map ih =>
    have hrest := ih fun w hw => hmap w (List.mem_cons_of_mem _ hw)
    simp only [putBy, List.map_cons] at hrest ⊢
    by_cases heq : key v = key value
    · rw [if_pos heq, List.filter_cons_of_pos hvalue, List.filter_cons_of_pos (hmap v List.mem_cons_self heq), hrest,
        List.map_cons, if_pos heq]
    · rw [if_neg heq]
      by_cases hp : p v = true
      · rw [List.filter_cons_of_pos hp, List.filter_cons_of_pos hp, hrest, List.map_cons, if_neg heq]
      · rw [List.filter_cons_of_neg hp, List.filter_cons_of_neg hp, hrest]

/-- A value that does not meet the condition leaves the part. -/
theorem filter_putBy_out {map : List α} {p : α → Bool} {value : α} (hvalue : p value = false) :
    (putBy key value map).filter p = (map.filter p).filter fun v => decide (key v ≠ key value) := by
  induction map with
  | nil => rfl
  | cons v map ih =>
    simp only [putBy, List.map_cons] at ih ⊢
    by_cases heq : key v = key value
    · rw [if_pos heq, List.filter_cons_of_neg (by rw [hvalue]; exact Bool.false_ne_true), ih]
      by_cases hp : p v = true
      · rw [List.filter_cons_of_pos hp, List.filter_cons_of_neg (by simp [heq])]
      · rw [List.filter_cons_of_neg hp]
    · rw [if_neg heq]
      by_cases hp : p v = true
      · rw [List.filter_cons_of_pos hp, List.filter_cons_of_pos hp, List.filter_cons_of_pos (by simp [heq]), ih]
      · rw [List.filter_cons_of_neg hp, List.filter_cons_of_neg hp, ih]

end KeyedMap
