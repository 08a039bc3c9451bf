import Barbaro.Core.StableJson

/-!
# The canonical form of a value

`sortKeys` brings any value to the one form that `stableStringify` writes.

* `sortKeys_written`: the canonical form is its own canonical form, and is read back.
* `lookup_sortKeysFields`: it has the same members.
* `parse_stable`: a canonical text is read back from its bytes as the canonical form.
-/

namespace Barbaro

theorem insertField_perm (f : JsString × Json) (fs : List (JsString × Json)) :
    (insertField f fs).Perm (f :: fs) := by
  induction fs with
  | nil => rfl
  | cons g fs ih =>
    rw [insertField]
    split
    · exact (ih.cons g).trans (.swap f g fs)
    · rfl

/-- Sorting the members, their values aside, is a permutation. -/
theorem sortKeysFields_perm (fs : List (JsString × Json)) :
    (sortKeysFields fs).Perm (fs.map (fun f => (f.1, sortKeys f.2))) := by
  induction fs with
  | nil => rfl
  | cons f fs ih =>
    rw [sortKeysFields, List.map_cons]
    exact (insertField_perm _ _).trans (ih.cons _)

theorem sortKeysFields_keys (fs : List (JsString × Json)) :
    ((sortKeysFields fs).map (·.1)).Perm (fs.map (·.1)) := by
  have h := (sortKeysFields_perm fs).map (·.1)
  rwa [List.map_map] at h

/-- A member is put in its place. -/
theorem insertField_sorted {f : JsString × Json} {fs : List (JsString × Json)}
    (hf : KeysSorted f.2) (hnew : f.1 ∉ fs.map (·.1)) (h : KeysSortedFields fs) :
    KeysSortedFields (insertField f fs) := by
  induction fs with
  | nil => exact ⟨hf, by simp, trivial⟩
  | cons g fs ih =>
    obtain ⟨hg, hbefore, hfs⟩ := h
    simp only [List.map_cons, List.mem_cons, not_or] at hnew
    rw [insertField]
    split
    · next hgt =>
      refine ⟨hg, fun k hk => ?_, ih hnew.2 hfs⟩
      rcases List.mem_cons.1 ((insertField_perm f fs).subset hk) with rfl | hk
      · exact (compare_swap g.1 _).2 hgt
      · exact hbefore k hk
    · next hle =>
      have hlt : compareUtf16CodeUnits f.1 g.1 = .lt := by
        rcases compare_total hnew.1 with hlt | hgt
        · exact hlt
        · exact absurd ((compare_swap g.1 f.1).1 hgt) hle
      refine ⟨hf, fun k hk => ?_, hg, hbefore, hfs⟩
      rcases List.mem_cons.1 hk with rfl | hk
      · exact hlt
      · exact compare_lt_trans hlt (hbefore k hk)

mutual

/-- The keys of the canonical form are in order. -/
theorem sortKeys_sorted {float : JsString → Json.Number} :
    ∀ {v : Json}, v.WellFormed float → KeysSorted (sortKeys v)
  | .null, _ => by rw [sortKeys]; all_goals simp [KeysSorted]
  | .bool _, _ => by rw [sortKeys]; all_goals simp [KeysSorted]
  | .num _, _ => by rw [sortKeys]; all_goals simp [KeysSorted]
  | .str _, _ => by rw [sortKeys]; all_goals simp [KeysSorted]
  | .arr _, h => by rw [sortKeys, KeysSorted]; exact sortKeysItems_sorted h
  | .obj _, h => by rw [sortKeys, KeysSorted]; exact sortKeysFields_sorted h.1 h.2

theorem sortKeysItems_sorted {float : JsString → Json.Number} :
    ∀ {vs : List Json}, Json.WellFormedItems float vs → KeysSortedItems (sortKeysItems vs)
  | [], _ => trivial
  | _ :: _, h => ⟨sortKeys_sorted h.1, sortKeysItems_sorted h.2⟩

theorem sortKeysFields_sorted {float : JsString → Json.Number} :
    ∀ {fs : List (JsString × Json)}, (fs.map (·.1)).Nodup → Json.WellFormedFields float fs →
      KeysSortedFields (sortKeysFields fs)
  | [], _, _ => trivial
  | (k, v) :: fs, hnodup, h => by
    rw [List.map_cons, List.nodup_cons] at hnodup
    have hnew : k ∉ (sortKeysFields fs).map (·.1) := fun hk =>
      hnodup.1 ((sortKeysFields_keys fs).subset hk)
    rw [sortKeysFields]
    exact insertField_sorted (sortKeys_sorted h.1) hnew (sortKeysFields_sorted hnodup.2 h.2)

end

mutual

theorem sortKeys_wellFormed {float : JsString → Json.Number} :
    ∀ {v : Json}, v.WellFormed float → (sortKeys v).WellFormed float
  | .null, _ => by rw [sortKeys]; all_goals simp [Json.WellFormed]
  | .bool _, _ => by rw [sortKeys]; all_goals simp [Json.WellFormed]
  | .num _, h => by rw [sortKeys]; · exact h
                    all_goals simp
  | .str _, _ => by rw [sortKeys]; all_goals simp [Json.WellFormed]
  | .arr _, h => by rw [sortKeys, Json.WellFormed]; exact sortKeysItems_wellFormed h
  | .obj fs, h => by
    rw [sortKeys, Json.WellFormed]
    exact ⟨(sortKeysFields_keys fs).nodup_iff.2 h.1, sortKeysFields_wellFormed h.2⟩

theorem sortKeysItems_wellFormed {float : JsString → Json.Number} :
    ∀ {vs : List Json}, Json.WellFormedItems float vs → Json.WellFormedItems float (sortKeysItems vs)
  | [], _ => trivial
  | _ :: _, h => ⟨sortKeys_wellFormed h.1, sortKeysItems_wellFormed h.2⟩

theorem sortKeysFields_wellFormed {float : JsString → Json.Number} :
    ∀ {fs : List (JsString × Json)}, Json.WellFormedFields float fs →
      Json.WellFormedFields float (sortKeysFields fs)
  | [], _ => trivial
  | (k, v) :: fs, h => by
    have htail := wellFormedFields_iff.1 (sortKeysFields_wellFormed h.2)
    rw [sortKeysFields, wellFormedFields_iff]
    intro f hf
    rcases List.mem_cons.1 ((insertField_perm _ _).subset hf) with rfl | hf
    · exact sortKeys_wellFormed h.1
    · exact htail f hf

end

/-- **The canonical form is its own canonical form, and is read back from its text.** -/
theorem sortKeys_written {float : JsString → Json.Number} {v : Json} (h : v.WellFormed float) :
    Written float (sortKeys v) :=
  ⟨sortKeys_sorted h, sortKeys_wellFormed h⟩

/-- Canonical text is the text of the canonical form. -/
theorem stableStringify_sortKeys {float : JsString → Json.Number} {v : Json} (h : v.WellFormed float) :
    stableStringify (sortKeys v) = stableStringify v := by
  rw [stableStringify, sortKeys_of_sorted (sortKeys_sorted h), stableStringify]

/-! ## Members -/

theorem lookup_insertField {k : JsString} {f : JsString × Json} {fs : List (JsString × Json)}
    (hnew : f.1 ∉ fs.map (·.1)) :
    Json.lookup k (insertField f fs) = if f.1 = k then some f.2 else Json.lookup k fs := by
  obtain ⟨key, v⟩ := f
  induction fs with
  | nil => rfl
  | cons g fs ih =>
    obtain ⟨key', v'⟩ := g
    simp only [List.map_cons, List.mem_cons, not_or] at hnew
    rw [insertField]
    split
    · rw [Json.lookup, ih hnew.2, Json.lookup]
      by_cases h' : key' = k
      · rw [if_pos h', if_pos h', if_neg (by rw [← h']; exact hnew.1)]
      · rw [if_neg h', if_neg h']
    · rfl

/-- The canonical form has the same members. -/
theorem lookup_sortKeysFields {k : JsString} {fs : List (JsString × Json)}
    (h : (fs.map (·.1)).Nodup) :
    Json.lookup k (sortKeysFields fs) = (Json.lookup k fs).map sortKeys := by
  induction fs with
  | nil => rfl
  | cons f fs ih =>
    obtain ⟨key, v⟩ := f
    rw [List.map_cons, List.nodup_cons] at h
    have hnew : key ∉ (sortKeysFields fs).map (·.1) := fun hk =>
      h.1 ((sortKeysFields_keys fs).subset hk)
    rw [sortKeysFields, lookup_insertField hnew, ih h.2, Json.lookup]
    split <;> rfl

theorem get_sortKeys {fs : List (JsString × Json)} (h : (fs.map (·.1)).Nodup) (k : JsString) :
    (sortKeys (.obj fs)).get k = ((Json.obj fs).get k).map sortKeys := by
  rw [sortKeys]
  exact lookup_sortKeysFields h

/-- A member that is there is replaced where it is. -/
theorem setField_keys {k : JsString} {fs : List (JsString × Json)} (h : k ∈ fs.map (·.1)) (v : Json) :
    (Json.setField k v fs).map (·.1) = fs.map (·.1) := by
  induction fs with
  | nil => cases h
  | cons f fs ih =>
    by_cases hf : f.1 = k
    · rw [Json.setField, if_pos hf, List.map_cons, List.map_cons, hf]
    · rw [List.map_cons, List.mem_cons] at h
      rw [Json.setField, if_neg hf, List.map_cons, ih (h.resolve_left (Ne.symm hf)), List.map_cons]

theorem mem_setField {k : JsString} {v : Json} {f : JsString × Json} {fs : List (JsString × Json)}
    (h : f ∈ Json.setField k v fs) : f = (k, v) ∨ f ∈ fs := by
  induction fs with
  | nil => exact .inl (by simpa [Json.setField] using h)
  | cons g fs ih =>
    rw [Json.setField] at h
    split at h
    · rcases List.mem_cons.1 h with rfl | h
      · exact .inl rfl
      · exact .inr (List.mem_cons_of_mem _ h)
    · rcases List.mem_cons.1 h with rfl | h
      · exact .inr List.mem_cons_self
      · exact (ih h).imp_right (List.mem_cons_of_mem _)

theorem key_of_lookup {k : JsString} {v : Json} {fs : List (JsString × Json)}
    (h : Json.lookup k fs = some v) : k ∈ fs.map (·.1) := by
  induction fs with
  | nil => cases h
  | cons f fs ih =>
    rw [Json.lookup] at h
    split at h
    · next hk => simp [hk]
    · rw [List.map_cons]
      exact List.mem_cons_of_mem _ (ih h)

/-- A written object stays one when a member that is there gets another written value. -/
theorem Written.setField {float : JsString → Json.Number} {k : JsString} {v : Json}
    {fs : List (JsString × Json)} (h : Written float (.obj fs)) (hv : Written float v)
    (hk : k ∈ fs.map (·.1)) : Written float (.obj (Json.setField k v fs)) := by
  refine ⟨keysSortedFields_iff.2 ⟨fun f hf => ?_, ?_⟩, Json.setField_wellFormed hv.wellFormed h.wellFormed⟩
  · rcases mem_setField hf with rfl | hf
    · exact hv.sorted
    · exact (keysSortedFields_iff.1 h.sorted).1 f hf
  · rw [setField_keys hk]
    exact (keysSortedFields_iff.1 h.sorted).2

/-! ## Lines -/

/-- The text of a canonical value has no control characters and no lone surrogates. -/
theorem stableStringify_clean {float : JsString → Json.Number} {v : Json} (h : v.WellFormed float) :
    Json.Clean (stableStringify v) := Json.render_clean (sortKeys_wellFormed h)

/-- A line feed never occurs in the bytes of canonical text. -/
theorem LF_not_mem_stable {float : JsString → Json.Number} {v : Json} (h : v.WellFormed float) :
    LF ∉ utf8 (stableStringify v) := by
  intro hmem
  obtain ⟨u, hu, heq⟩ := Utf16.ascii_mem_utf8 (b := LF) (by decide) hmem
  have hprintable := (stableStringify_clean h).noControl u hu
  rw [heq] at hprintable
  exact absurd hprintable (by decide)

end Barbaro
