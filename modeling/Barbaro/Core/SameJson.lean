import Barbaro.Core.CanonicalJson
import Barbaro.Lib.JsonKeys
import Mathlib.Data.List.Perm.Subperm

/-!
# The same value in another order

Two objects are the same if they have the same members, whatever their order; arrays are
compared place by place.

* `Same`: this relation, at every depth.
* `same_iff`: two values are the same exactly if they have one canonical form.
-/

namespace Json

mutual

/-- Equal up to the order of the members of objects. -/
def Same : Json → Json → Prop
  | .obj fs, .obj gs => fs.length = gs.length ∧ SameFields fs gs
  | .arr vs, .arr ws => SameItems vs ws
  | .null, w => w = .null
  | .bool b, w => w = .bool b
  | .num n, w => w = .num n
  | .str s, w => w = .str s
  | .obj _, _ => False
  | .arr _, _ => False

def SameItems : List Json → List Json → Prop
  | [], ws => ws = []
  | v :: vs, w :: ws => Same v w ∧ SameItems vs ws
  | _ :: _, [] => False

/-- Each member has its same among the others. -/
def SameFields : List (Text × Json) → List (Text × Json) → Prop
  | [], _ => True
  | (k, v) :: fs, gs => (∃ w, lookup k gs = some w ∧ Same v w) ∧ SameFields fs gs

end

end Json

namespace Barbaro

open Json (Same SameItems SameFields)

theorem compare_le_trans (a b c : JsString) (hab : compareUtf16CodeUnits a b ≠ .gt)
    (hbc : compareUtf16CodeUnits b c ≠ .gt) : compareUtf16CodeUnits a c ≠ .gt := by
  rcases hb : compareUtf16CodeUnits a b with _ | _ | _
  · rcases hc : compareUtf16CodeUnits b c with _ | _ | _
    · rw [compare_lt_trans hb hc]
      decide
    · rw [← compare_eq.1 hc, hb]
      decide
    · exact absurd hc hbc
  · rw [compare_eq.1 hb]
    exact hbc
  · exact absurd hb hab

theorem compare_le_total (a b : JsString) :
    compareUtf16CodeUnits a b ≠ .gt ∨ compareUtf16CodeUnits b a ≠ .gt := by
  by_cases h : compareUtf16CodeUnits a b = .gt
  · exact .inr (by rw [(compare_swap b a).2 h]; decide)
  · exact .inl h

/-- `sort` by a key that tells the elements puts them in its strict order. -/
theorem sortedBy_strict {α : Type} (key : α → JsString) {xs : List α} (h : (xs.map key).Nodup) :
    (xs.mergeSort (fun a b => compareUtf16CodeUnits (key a) (key b) ≠ .gt)).Pairwise
      (fun a b => compareUtf16CodeUnits (key a) (key b) = .lt) := by
  set le : α → α → Bool := fun a b => compareUtf16CodeUnits (key a) (key b) ≠ .gt with hle
  have hsorted : (xs.mergeSort le).Pairwise (fun a b => le a b) := by
    refine List.pairwise_mergeSort (fun a b c => ?_) (fun a b => ?_) xs
    · simp only [hle, decide_eq_true_eq]
      exact compare_le_trans _ _ _
    · simp only [hle, Bool.or_eq_true, decide_eq_true_eq]
      exact compare_le_total _ _
  have hnodup : (xs.mergeSort le).Pairwise (fun a b => key a ≠ key b) := by
    have hkeys := ((List.mergeSort_perm xs le).map key).nodup_iff.2 h
    exact List.pairwise_map.1 hkeys
  refine (hsorted.and hnodup).imp fun {a b} hab => ?_
  obtain ⟨hnot, hne⟩ := hab
  simp only [hle, decide_eq_true_eq] at hnot
  rcases hc : compareUtf16CodeUnits (key a) (key b) with _ | _ | _
  · rfl
  · exact absurd (compare_eq.1 hc) hne
  · exact absurd hc hnot

/-- Two lists of members in the order of their keys that have the same members are equal. -/
theorem ordered_unique {α : Type} {fs gs : List (JsString × α)}
    (hfs : (fs.map (·.1)).Pairwise (fun a b => compareUtf16CodeUnits a b = .lt))
    (hgs : (gs.map (·.1)).Pairwise (fun a b => compareUtf16CodeUnits a b = .lt)) (h : fs.Perm gs) : fs = gs := by
  refine @List.Perm.eq_of_pairwise _ (fun f g => compareUtf16CodeUnits f.1 g.1 = .lt) fs gs ?_ ?_ ?_ h
  · intro f g _ _ hfg hgf
    rw [(compare_swap _ _).1 hfg] at hgf
    cases hgf
  · exact List.pairwise_map.1 hfs
  · exact List.pairwise_map.1 hgs

theorem sortKeysFields_ordered {float : JsString → Json.Number} {fs : List (JsString × Json)}
    (h : (Json.obj fs).WellFormed float) :
    ((sortKeysFields fs).map (·.1)).Pairwise (fun a b => compareUtf16CodeUnits a b = .lt) :=
  (keysSortedFields_iff.1 (sortKeysFields_sorted h.1 h.2)).2

/-- The members of an object in canonical form. -/
theorem mem_sortKeysFields {f : JsString × Json} {fs : List (JsString × Json)} :
    f ∈ sortKeysFields fs ↔ ∃ v, (f.1, v) ∈ fs ∧ sortKeys v = f.2 := by
  rw [(sortKeysFields_perm fs).mem_iff, List.mem_map]
  constructor
  · rintro ⟨g, hg, rfl⟩
    exact ⟨g.2, hg, rfl⟩
  · rintro ⟨v, hv, hsorted⟩
    exact ⟨(f.1, v), hv, Prod.ext rfl hsorted⟩

/-- Objects of the same size, in one of which each member has its match in the other, have
one canonical form. -/
theorem sortKeysFields_eq {float : JsString → Json.Number} {fs gs : List (JsString × Json)}
    (hfs : (Json.obj fs).WellFormed float) (hgs : (Json.obj gs).WellFormed float) (hlength : fs.length = gs.length)
    (h : ∀ f ∈ fs, ∃ w, (f.1, w) ∈ gs ∧ sortKeys f.2 = sortKeys w) : sortKeysFields fs = sortKeysFields gs := by
  refine ordered_unique (sortKeysFields_ordered hfs) (sortKeysFields_ordered hgs) ?_
  have hnodup : (sortKeysFields fs).Nodup :=
    .of_map _ ((sortKeysFields_keys fs).nodup_iff.2 hfs.1)
  have hsub : sortKeysFields fs ⊆ sortKeysFields gs := by
    intro f hf
    obtain ⟨v, hv, hsorted⟩ := mem_sortKeysFields.1 hf
    obtain ⟨w, hw, heq⟩ := h _ hv
    exact mem_sortKeysFields.2 ⟨w, hw, by rw [← heq, hsorted]⟩
  refine (List.subperm_of_subset hnodup hsub).perm_of_length_le ?_
  rw [(sortKeysFields_perm fs).length_eq, (sortKeysFields_perm gs).length_eq, List.length_map, List.length_map,
    hlength]

section
variable {float : JsString → Json.Number}

mutual

theorem sortKeys_of_same : ∀ {v w : Json}, v.WellFormed float → w.WellFormed float → Same v w →
    sortKeys v = sortKeys w
  | .null, w, _, _, h => by
    obtain rfl : w = .null := h
    rfl
  | .bool b, w, _, _, h => by
    obtain rfl : w = .bool b := h
    rfl
  | .num n, w, _, _, h => by
    obtain rfl : w = .num n := h
    rfl
  | .str s, w, _, _, h => by
    obtain rfl : w = .str s := h
    rfl
  | .arr vs, .arr ws, hv, hw, h => by
    rw [sortKeys, sortKeys, sortKeysItems_of_same hv hw h]
  | .obj fs, .obj gs, hv, hw, h => by
    rw [sortKeys, sortKeys, sortKeysFields_eq hv hw h.1 (sortKeysFields_of_same hv.2 hw h.2)]

theorem sortKeysItems_of_same : ∀ {vs ws : List Json}, Json.WellFormedItems float vs →
    Json.WellFormedItems float ws → SameItems vs ws → sortKeysItems vs = sortKeysItems ws
  | [], ws, _, _, h => by
    obtain rfl : ws = [] := h
    rfl
  | v :: vs, w :: ws, hv, hw, h => by
    rw [sortKeysItems, sortKeysItems, sortKeys_of_same hv.1 hw.1 h.1, sortKeysItems_of_same hv.2 hw.2 h.2]

theorem sortKeysFields_of_same : ∀ {fs gs : List (JsString × Json)}, Json.WellFormedFields float fs →
    (Json.obj gs).WellFormed float → SameFields fs gs →
    ∀ f ∈ fs, ∃ w, (f.1, w) ∈ gs ∧ sortKeys f.2 = sortKeys w
  | [], _, _, _, _ => by simp
  | (k, v) :: fs, gs, hv, hw, h => by
    obtain ⟨⟨w, hlookup, hsame⟩, hrest⟩ := h
    have hmem : (k, w) ∈ gs := (Json.lookup_iff_mem hw.1).1 hlookup
    have hwell := wellFormedFields_iff.1 hw.2 _ hmem
    refine List.forall_mem_cons.2 ⟨⟨w, hmem, sortKeys_of_same hv.1 hwell hsame⟩, ?_⟩
    exact sortKeysFields_of_same hv.2 hw hrest

end

mutual

theorem same_of_sortKeys : ∀ {v w : Json}, v.WellFormed float → w.WellFormed float →
    sortKeys v = sortKeys w → Same v w
  | .null, w, _, _, h => by
    cases w <;> simp_all [sortKeys, Same]
  | .bool b, w, _, _, h => by
    cases w <;> simp_all [sortKeys, Same]
  | .num n, w, _, _, h => by
    cases w <;> simp_all [sortKeys, Same]
  | .str s, w, _, _, h => by
    cases w <;> simp_all [sortKeys, Same]
  | .arr vs, w, hv, hw, h => by
    cases w with
    | arr ws => exact sameItems_of_sortKeys hv hw (Json.arr.inj h)
    | _ => cases h
  | .obj fs, w, hv, hw, h => by
    cases w with
    | obj gs =>
      have hfields : sortKeysFields fs = sortKeysFields gs := Json.obj.inj h
      have hlength := congrArg List.length hfields
      rw [(sortKeysFields_perm fs).length_eq, (sortKeysFields_perm gs).length_eq, List.length_map,
        List.length_map] at hlength
      refine ⟨hlength, sameFields_of_sortKeys hv.2 hw fun f hf => ?_⟩
      have hmem : (f.1, sortKeys f.2) ∈ sortKeysFields gs := by
        rw [← hfields]
        exact mem_sortKeysFields.2 ⟨f.2, hf, rfl⟩
      obtain ⟨w, hw, hsorted⟩ := mem_sortKeysFields.1 hmem
      exact ⟨w, hw, hsorted.symm⟩
    | _ => cases h

theorem sameItems_of_sortKeys : ∀ {vs ws : List Json}, Json.WellFormedItems float vs →
    Json.WellFormedItems float ws → sortKeysItems vs = sortKeysItems ws → SameItems vs ws
  | [], ws, _, _, h => by
    cases ws with
    | nil => rfl
    | cons w ws => cases h
  | v :: vs, ws, hv, hw, h => by
    cases ws with
    | nil => cases h
    | cons w ws =>
      rw [sortKeysItems, sortKeysItems, List.cons.injEq] at h
      exact ⟨same_of_sortKeys hv.1 hw.1 h.1, sameItems_of_sortKeys hv.2 hw.2 h.2⟩

theorem sameFields_of_sortKeys : ∀ {fs gs : List (JsString × Json)}, Json.WellFormedFields float fs →
    (Json.obj gs).WellFormed float → (∀ f ∈ fs, ∃ w, (f.1, w) ∈ gs ∧ sortKeys f.2 = sortKeys w) → SameFields fs gs
  | [], _, _, _, _ => trivial
  | (k, v) :: fs, gs, hv, hw, h => by
    obtain ⟨⟨w, hmem, hsorted⟩, hrest⟩ := List.forall_mem_cons.1 h
    have hwell := wellFormedFields_iff.1 hw.2 _ hmem
    refine ⟨⟨w, (Json.lookup_iff_mem hw.1).2 hmem, same_of_sortKeys hv.1 hwell hsorted⟩, ?_⟩
    exact sameFields_of_sortKeys hv.2 hw hrest

end

/-- **Two values are the same exactly if they have one canonical form.** -/
theorem same_iff {v w : Json} (hv : v.WellFormed float) (hw : w.WellFormed float) :
    Same v w ↔ sortKeys v = sortKeys w :=
  ⟨sortKeys_of_same hv hw, same_of_sortKeys hv hw⟩

/-- Canonical texts are equal exactly for the same values. -/
theorem stableStringify_eq_iff {v w : Json} (hv : v.WellFormed float) (hw : w.WellFormed float) :
    stableStringify v = stableStringify w ↔ Same v w := by
  rw [same_iff hv hw]
  constructor
  · intro h
    exact Json.render_injective (sortKeys_wellFormed hv) (sortKeys_wellFormed hw) h
  · intro h
    rw [stableStringify, h, stableStringify]

/-- **A canonical text is read back as the same value.** -/
theorem parse_same {v : Json} (h : v.WellFormed float) :
    ∃ parsed, Json.parse float (stableStringify v) = some parsed ∧ Same parsed v := by
  refine ⟨sortKeys v, Json.parse_render (sortKeys_wellFormed h), ?_⟩
  rw [same_iff (sortKeys_wellFormed h) h]
  exact sortKeys_of_sorted (sortKeys_sorted h)

end

end Barbaro
