import Barbaro.Core.TextSize
import Mathlib.Data.List.Perm.Subperm

/-!
# Objects with optional members

An object literal leaves out the members that are `undefined`. Here such an object is given
by all its members, in the order of their keys.

* `get_objectOf`: what is read at a key is what was given for it.
* `Written.objectOf`: such an object is its own canonical form.
* `size_le_of_keys`: the bytes of an object with known keys, from those of its values.
-/

namespace Barbaro

/-- The object of the members that have a value. -/
def objectOf (members : List (String × Option Json)) : Json :=
  .obj (members.filterMap (fun m => m.2.map (fun v => (js m.1, v))))

/-- `Object.keys(value)` has at most the allowed keys. -/
def hasOnlyKeys (allowed : List String) : Json → Bool
  | .obj fs => fs.length ≤ allowed.length && fs.all (fun f => allowed.any (fun k => js k == f.1))
  | _ => false

section
variable {members : List (String × Option Json)}

theorem nodup_of_ordered (h : orderedKeys (members.map (fun m => js m.1)) = true) :
    (members.map (·.1)).Nodup := by
  have hpairs := List.pairwise_map.1 (orderedKeys_pairwise h)
  rw [List.Nodup, List.pairwise_map]
  refine hpairs.imp fun hlt heq => ?_
  rw [heq, compare_eq.2 rfl] at hlt
  cases hlt

theorem get_objectOf_of_nodup {k : String} {v : Option Json} (h : (k, v) ∈ members)
    (hnd : (members.map (·.1)).Nodup) : (objectOf members).get (js k) = v := by
  have hlookup : ∀ {ms : List (String × Option Json)}, k ∉ ms.map (·.1) →
      Json.lookup (js k) (ms.filterMap (fun m => m.2.map (fun v => (js m.1, v)))) = none := by
    intro ms hk
    induction ms with
    | nil => rfl
    | cons m ms ih =>
      obtain ⟨k', w⟩ := m
      rw [List.map_cons, List.mem_cons, not_or] at hk
      rcases w with _ | w
      · simpa using ih hk.2
      · simp only [List.filterMap_cons, Option.map_some, Json.lookup, js_inj]
        rw [if_neg (Ne.symm hk.1)]
        exact ih hk.2
  simp only [objectOf, Json.get]
  induction members with
  | nil => cases h
  | cons m ms ih =>
    obtain ⟨k', w⟩ := m
    rw [List.map_cons, List.nodup_cons] at hnd
    rcases List.mem_cons.1 h with heq | hm
    · cases heq
      rcases v with _ | v
      · simpa using hlookup hnd.1
      · simp [Json.lookup]
    · have hne : k' ≠ k := by
        rintro rfl
        exact hnd.1 (List.mem_map.2 ⟨_, hm, rfl⟩)
      rcases w with _ | w
      · simpa using ih hm hnd.2
      · simp only [List.filterMap_cons, Option.map_some, Json.lookup, js_inj]
        rw [if_neg hne]
        exact ih hm hnd.2

theorem get_objectOf {k : String} {v : Option Json} (h : (k, v) ∈ members)
    (hkeys : orderedKeys (members.map (fun m => js m.1)) = true) :
    (objectOf members).get (js k) = v := get_objectOf_of_nodup h (nodup_of_ordered hkeys)

theorem keys_objectOf : ∃ fs, objectOf members = .obj fs ∧
    List.Sublist (fs.map (·.1)) (members.map (fun m => js m.1)) := by
  refine ⟨_, rfl, ?_⟩
  induction members with
  | nil => exact .slnil
  | cons m ms ih =>
    obtain ⟨k, w⟩ := m
    rcases w with _ | w
    · simpa using ih.cons (js k)
    · simpa using ih.cons_cons (js k)

theorem values_objectOf {P : Json → Prop} (h : ∀ m ∈ members, ∀ v, m.2 = some v → P v)
    {fs : List (JsString × Json)} (hfs : objectOf members = .obj fs) : ∀ f ∈ fs, P f.2 := by
  intro f hf
  rw [← Json.obj.inj hfs] at hf
  obtain ⟨m, hm, hmf⟩ := List.mem_filterMap.1 hf
  obtain ⟨v, hv, rfl⟩ := Option.map_eq_some_iff.1 hmf
  exact h m hm v hv

theorem wellFormed_objectOf {float : JsString → Json.Number}
    (h : ∀ m ∈ members, ∀ v, m.2 = some v → v.WellFormed float)
    (hkeys : orderedKeys (members.map (fun m => js m.1)) = true) :
    (objectOf members).WellFormed float := by
  obtain ⟨fs, hfs, hsub⟩ := @keys_objectOf members
  have hnd : (members.map (fun m => js m.1)).Nodup := by
    refine (orderedKeys_pairwise hkeys).imp fun hlt heq => ?_
    rw [heq, compare_eq.2 rfl] at hlt
    cases hlt
  rw [hfs]
  exact ⟨hnd.sublist hsub, wellFormedFields_iff.2 (values_objectOf h hfs)⟩

/-- **An object whose members are listed in order** is its own canonical form. -/
theorem Written.objectOf {float : JsString → Json.Number}
    (h : ∀ m ∈ members, ∀ v, m.2 = some v → Written float v)
    (hkeys : orderedKeys (members.map (fun m => js m.1)) = true) :
    Written float (objectOf members) := by
  obtain ⟨fs, hfs, hsub⟩ := @keys_objectOf members
  have hsorted : KeysSortedFields fs := keysSortedFields_iff.2
    ⟨fun f hf => (values_objectOf h hfs f hf).sorted, (orderedKeys_pairwise hkeys).sublist hsub⟩
  rw [hfs]
  exact ⟨hsorted, keysSortedFields_nodup hsorted,
    wellFormedFields_iff.2 fun f hf => (values_objectOf h hfs f hf).wellFormed⟩

theorem hasOnlyKeys_objectOf : hasOnlyKeys (members.map (·.1)) (objectOf members) = true := by
  obtain ⟨fs, hfs, hsub⟩ := @keys_objectOf members
  rw [hfs, hasOnlyKeys, Bool.and_eq_true, decide_eq_true_eq, List.all_eq_true]
  refine ⟨by simpa using hsub.length_le, fun f hf => ?_⟩
  have hmem := hsub.subset (List.mem_map_of_mem hf)
  obtain ⟨m, hm, heq⟩ := List.mem_map.1 hmem
  rw [List.any_eq_true]
  exact ⟨m.1, List.mem_map_of_mem hm, by simpa using heq⟩

theorem unknownKeys_objectOf {allowed : List String} (h : (members.map (·.1)).all allowed.contains = true) :
    unknownKeys allowed (objectOf members) = false := by
  obtain ⟨fs, hfs, hsub⟩ := @keys_objectOf members
  rw [hfs, unknownKeys, List.any_eq_false]
  intro f hf
  obtain ⟨m, hm, heq⟩ := List.mem_map.1 (hsub.subset (List.mem_map_of_mem hf))
  have hin := List.all_eq_true.1 h m.1 (List.mem_map_of_mem hm)
  have hany : allowed.any (fun k => js k == f.1) = true :=
    List.any_eq_true.2 ⟨m.1, by simpa using hin, by simpa using heq⟩
  rw [hany]
  decide

/-- Known keys, when no key stands twice. -/
theorem hasOnlyKeys_iff {allowed : List String} {fs : List (JsString × Json)} (hnd : (fs.map (·.1)).Nodup) :
    hasOnlyKeys allowed (.obj fs) = true ↔ ∀ k ∈ fs.map (·.1), k ∈ allowed.map js := by
  simp only [hasOnlyKeys, Bool.and_eq_true, decide_eq_true_eq, List.all_eq_true, List.any_eq_true, beq_iff_eq,
    List.mem_map]
  constructor
  · rintro ⟨-, hall⟩ k ⟨f, hf, rfl⟩
    exact hall f hf
  · intro h
    refine ⟨?_, fun f hf => h f.1 ⟨f, hf, rfl⟩⟩
    have hsub : fs.map (·.1) ⊆ allowed.map js := fun k hk => by
      obtain ⟨f, hf, rfl⟩ := List.mem_map.1 hk
      exact List.mem_map.2 (h f.1 ⟨f, hf, rfl⟩)
    simpa using (hnd.subperm hsub).length_le

theorem hasOnlyKeys_setField {allowed : List String} {fs : List (JsString × Json)} {k : String} {v : Json}
    (h : hasOnlyKeys allowed (.obj fs) = true) (hnd : (fs.map (·.1)).Nodup) (hk : k ∈ allowed) :
    hasOnlyKeys allowed (.obj (Json.setField (js k) v fs)) = true := by
  rw [hasOnlyKeys_iff hnd] at h
  rw [hasOnlyKeys_iff (Json.setField_nodup hnd)]
  intro k' hk'
  rcases Json.mem_keys_setField.1 hk' with rfl | hk'
  · exact List.mem_map_of_mem hk
  · exact h k' hk'

end

/-! ## Canonical order -/

/-- An object whose values are canonical differs from its canonical form in the order of its
members only. -/
theorem get_sortKeys_shallow {fs : List (JsString × Json)} (hnd : (fs.map (·.1)).Nodup)
    (hvalues : ∀ f ∈ fs, KeysSorted f.2) (k : JsString) :
    (sortKeys (.obj fs)).get k = (Json.obj fs).get k := by
  rw [get_sortKeys hnd]
  rcases h : (Json.obj fs).get k with _ | v
  · rfl
  · have hmem : ∃ f ∈ fs, f.2 = v := by
      have hlookup : Json.lookup k fs = some v := h
      clear h hnd hvalues
      induction fs with
      | nil => cases hlookup
      | cons f fs ih =>
        rw [Json.lookup] at hlookup
        split at hlookup
        · exact ⟨f, List.mem_cons_self, Option.some.inj hlookup⟩
        · obtain ⟨g, hg, hgv⟩ := ih hlookup
          exact ⟨g, List.mem_cons_of_mem _ hg, hgv⟩
    obtain ⟨f, hf, rfl⟩ := hmem
    rw [Option.map_some, sortKeys_of_sorted (hvalues f hf)]

theorem hasOnlyKeys_sortKeys (allowed : List String) (fs : List (JsString × Json)) :
    hasOnlyKeys allowed (sortKeys (.obj fs)) = hasOnlyKeys allowed (.obj fs) := by
  have hperm := sortKeysFields_keys fs
  have hlen : (sortKeysFields fs).length = fs.length := by
    simpa using hperm.length_eq
  have hall : ∀ gs : List (JsString × Json), gs.all (fun f => allowed.any (fun k => js k == f.1)) =
      (gs.map (·.1)).all (fun f => allowed.any (fun k => js k == f)) := by
    intro gs
    rw [List.all_map]
    rfl
  rw [sortKeys, hasOnlyKeys, hasOnlyKeys, hlen, hall, hall, hperm.all_eq]

/-! ## Sizes -/

/-- **The bytes of an object with known keys**, from bounds of the values at them. -/
theorem size_le_of_keys {float : JsString → Json.Number} {v : Json} (bounds : List (String × ℕ))
    (hv : v.WellFormed float) (hkeys : hasOnlyKeys (bounds.map (·.1)) v = true)
    (h : ∀ b ∈ bounds, ∀ w, v.get (js b.1) = some w → stableSize w ≤ b.2) :
    stableSize v ≤ (bounds.map (fun b => byteLength (Json.quote (js b.1)) + b.2 + 2)).sum + 2 := by
  obtain ⟨fs, rfl⟩ : ∃ fs, v = .obj fs := by
    cases v <;> first | exact ⟨_, rfl⟩ | cases hkeys
  rw [hasOnlyKeys, Bool.and_eq_true, List.all_eq_true] at hkeys
  have hnd : (fs.map (·.1)).Nodup := hv.1
  rcases eq_or_ne fs [] with rfl | hne
  · have hempty : stableSize (.obj []) = 2 := by decide
    omega
  have hwell : ∀ f ∈ fs, Utf16.WellFormed (stableStringify f.2) := fun f hf =>
    (stableStringify_clean (wellFormedFields_iff.1 hv.2 f hf)).wellFormed
  rw [(stable_obj hne hwell).2]
  -- every member is bounded by the entry of its key, and no entry is used twice
  have hmember : ∀ f ∈ fs, ∃ b ∈ bounds, js b.1 = f.1 ∧ memberSize f ≤
      byteLength (Json.quote (js b.1)) + b.2 + 2 := by
    intro f hf
    obtain ⟨k, hk, heq⟩ := List.any_eq_true.1 (hkeys.2 f hf)
    obtain ⟨b, hb, rfl⟩ := List.mem_map.1 hk
    have hkey : js b.1 = f.1 := by simpa using heq
    have hget : (Json.obj fs).get (js b.1) = some f.2 := by
      rw [hkey]
      clear hkeys h hv hwell hne
      induction fs with
      | nil => cases hf
      | cons g fs ih =>
        rw [List.map_cons, List.nodup_cons] at hnd
        obtain ⟨gk, gv⟩ := g
        rcases List.mem_cons.1 hf with rfl | htail
        · simp [Json.get, Json.lookup]
        · have hne : gk ≠ f.1 := fun heq => hnd.1 (List.mem_map.2 ⟨f, htail, heq.symm⟩)
          simp only [Json.get, Json.lookup]
          rw [if_neg hne]
          exact ih hnd.2 htail
    have hsize := h b hb f.2 hget
    refine ⟨b, hb, hkey, ?_⟩
    unfold memberSize
    rw [← hkey]
    omega
  have hsum : ∀ (fs : List (JsString × Json)) (bounds : List (String × ℕ)), (fs.map (·.1)).Nodup →
      (∀ f ∈ fs, ∃ b ∈ bounds, js b.1 = f.1 ∧ memberSize f ≤
        byteLength (Json.quote (js b.1)) + b.2 + 2) →
      (fs.map memberSize).sum ≤
        (bounds.map (fun b => byteLength (Json.quote (js b.1)) + b.2 + 2)).sum := by
    intro fs
    induction fs with
    | nil => intro bounds _ _; exact Nat.zero_le _
    | cons f fs ih =>
      intro bounds hnd hb
      rw [List.map_cons, List.nodup_cons] at hnd
      obtain ⟨b, hbm, hkey, hle⟩ := hb f List.mem_cons_self
      obtain ⟨before, after, rfl⟩ := List.append_of_mem hbm
      have hrest := ih (before ++ after) hnd.2 fun g hg => by
        obtain ⟨b', hb', hkey', hle'⟩ := hb g (List.mem_cons_of_mem _ hg)
        refine ⟨b', ?_, hkey', hle'⟩
        rcases List.mem_append.1 hb' with hb' | hb'
        · exact List.mem_append_left _ hb'
        · rcases List.mem_cons.1 hb' with rfl | hb'
          · exact absurd (List.mem_map_of_mem (f := fun f : JsString × Json => f.1) hg)
              (by rw [← hkey', hkey]; exact hnd.1)
          · exact List.mem_append_right _ hb'
      simp only [List.map_append, List.map_cons, List.sum_append, List.sum_cons] at hrest ⊢
      omega
  have := hsum fs bounds hnd hmember
  omega

/-- The bytes of an array, from a bound of its items. -/
theorem size_arr_le {float : JsString → Json.Number} {vs : List Json} {bound : ℕ}
    (hv : (Json.arr vs).WellFormed float) (h : ∀ v ∈ vs, stableSize v ≤ bound) :
    stableSize (.arr vs) ≤ vs.length * (bound + 1) + 2 := by
  have hitems : ∀ ws : List Json, Json.WellFormedItems float ws → (∀ v ∈ ws, stableSize v ≤ bound) →
      Utf16.WellFormed (Json.renderItems (sortKeysItems ws)) ∧
        byteLength (Json.renderItems (sortKeysItems ws)) ≤ ws.length * (bound + 1) + 1 := by
    intro ws
    induction ws with
    | nil => intro _ _; exact ⟨.plain (by simp [sortKeysItems, Json.renderItems]), by simp [sortKeysItems, Json.renderItems]; rfl⟩
    | cons v ws ih =>
      intro hws hb
      obtain ⟨hwell, hlen⟩ := ih hws.2 (fun w hw => hb w (List.mem_cons_of_mem _ hw))
      have hclean : Utf16.WellFormed (sortKeys v).render := (stableStringify_clean hws.1).wellFormed
      have hcomma : Utf16.WellFormed [44] := .plain (by simp)
      have hsize := hb v List.mem_cons_self
      rw [stableSize, stableStringify] at hsize
      simp only [sortKeysItems, Json.renderItems, List.cons_append]
      refine ⟨hcomma.append (hclean.append hwell), ?_⟩
      rw [byteLength_cons (u := 44) (by decide), byteLength_append hclean, List.length_cons, Nat.add_mul]
      omega
  cases vs with
  | nil =>
    have hempty : stableSize (.arr []) = 2 := by decide
    rw [hempty]
    omega
  | cons v vs =>
    obtain ⟨hwell, hlen⟩ := hitems vs hv.2 (fun w hw => h w (List.mem_cons_of_mem _ hw))
    have hclean : Utf16.WellFormed (sortKeys v).render := (stableStringify_clean hv.1).wellFormed
    have hsize := h v List.mem_cons_self
    rw [stableSize, stableStringify] at hsize
    rw [stableSize, stableStringify, sortKeys, sortKeysItems]
    simp only [Json.render, List.cons_append]
    rw [byteLength_cons (u := 91) (by decide), byteLength_append hclean, List.length_cons, Nat.add_mul]
    omega

end Barbaro
