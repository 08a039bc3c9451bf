import Barbaro.Core.Host
import Barbaro.Lib.JsonText

/-!
# Canonical JSON

`stableStringify` writes a JSON value with the keys of every object in the order of
their UTF-16 code units, so that equal values have equal text.

* `compareUtf16CodeUnits`: that order, a linear one (`compare_eq`, `compare_swap`,
  `compare_lt_trans`).
* `sortKeys_of_sorted`: a value whose keys are sorted is written as it is.
* `bytesToString_utf8`: canonical text survives its bytes.
-/

namespace Barbaro

/-- Strings by their UTF-16 code units, independent of any locale. -/
def compareUtf16CodeUnits : JsString → JsString → Ordering
  | [], [] => .eq
  | [], _ :: _ => .lt
  | _ :: _, [] => .gt
  | a :: as, b :: bs =>
    if a.toNat < b.toNat then .lt
    else if b.toNat < a.toNat then .gt
    else compareUtf16CodeUnits as bs

theorem compare_eq {a b : JsString} : compareUtf16CodeUnits a b = .eq ↔ a = b := by
  induction a generalizing b with
  | nil => cases b <;> simp [compareUtf16CodeUnits]
  | cons x xs ih =>
    cases b with
    | nil => simp [compareUtf16CodeUnits]
    | cons y ys =>
      rw [compareUtf16CodeUnits, List.cons.injEq, ← UInt16.toNat_inj]
      split
      · simp; omega
      · split
        · simp; omega
        · rw [ih]
          exact ⟨fun h => ⟨by omega, h⟩, fun h => h.2⟩

theorem compare_swap (a b : JsString) :
    compareUtf16CodeUnits a b = .lt ↔ compareUtf16CodeUnits b a = .gt := by
  induction a generalizing b with
  | nil => cases b <;> simp [compareUtf16CodeUnits]
  | cons x xs ih =>
    cases b with
    | nil => simp [compareUtf16CodeUnits]
    | cons y ys =>
      simp only [compareUtf16CodeUnits]
      by_cases h1 : x.toNat < y.toNat
      · simp [h1, Nat.not_lt.2 (Nat.le_of_lt h1)]
      · by_cases h2 : y.toNat < x.toNat
        · simp [h1, h2]
        · simp [h1, h2, ih]

theorem compare_lt_trans {a b c : JsString} (h1 : compareUtf16CodeUnits a b = .lt)
    (h2 : compareUtf16CodeUnits b c = .lt) : compareUtf16CodeUnits a c = .lt := by
  induction a generalizing b c with
  | nil =>
    cases b with
    | nil => cases h1
    | cons y ys =>
      cases c with
      | nil => cases h2
      | cons z zs => rfl
  | cons x xs ih =>
    cases b with
    | nil => cases h1
    | cons y ys =>
      cases c with
      | nil => cases h2
      | cons z zs =>
        simp only [compareUtf16CodeUnits] at h1 h2 ⊢
        split at h1
        · split at h2
          · rw [if_pos (by omega)]
          · split at h2
            · cases h2
            · rw [if_pos (by omega)]
        · split at h1
          · cases h1
          · split at h2
            · rw [if_pos (by omega)]
            · split at h2
              · cases h2
              · rw [if_neg (by omega), if_neg (by omega)]
                exact ih h1 h2

theorem compare_total {a b : JsString} (h : a ≠ b) :
    compareUtf16CodeUnits a b = .lt ∨ compareUtf16CodeUnits b a = .lt := by
  rcases hc : compareUtf16CodeUnits a b with _ | _ | _
  · exact .inl rfl
  · exact absurd (compare_eq.1 hc) h
  · exact .inr ((compare_swap b a).2 hc)

/-! ## `stableStringify` -/

/-- Put a member before the first one whose key does not precede its own. -/
def insertField (f : JsString × Json) : List (JsString × Json) → List (JsString × Json)
  | [] => [f]
  | g :: fs =>
    if compareUtf16CodeUnits f.1 g.1 = .gt then g :: insertField f fs else f :: g :: fs

mutual

/-- The value with the members of every object sorted by key. -/
def sortKeys : Json → Json
  | .arr vs => .arr (sortKeysItems vs)
  | .obj fs => .obj (sortKeysFields fs)
  | v => v

def sortKeysItems : List Json → List Json
  | [] => []
  | v :: vs => sortKeys v :: sortKeysItems vs

def sortKeysFields : List (JsString × Json) → List (JsString × Json)
  | [] => []
  | (k, v) :: fs => insertField (k, sortKeys v) (sortKeysFields fs)

end

theorem sortKeysItems_eq (vs : List Json) : sortKeysItems vs = vs.map sortKeys := by
  induction vs with
  | nil => rfl
  | cons v vs ih => rw [sortKeysItems, ih, List.map_cons]

/-- The canonical text of a value: keys sorted at every depth, arrays in order. -/
def stableStringify (v : Json) : JsString := (sortKeys v).render

/-- One newline-terminated record. -/
def stableJsonLine (v : Json) : JsString := stableStringify v ++ [10]

mutual

/-- The keys of every object are in strict order. -/
def KeysSorted : Json → Prop
  | .arr vs => KeysSortedItems vs
  | .obj fs => KeysSortedFields fs
  | _ => True

def KeysSortedItems : List Json → Prop
  | [] => True
  | v :: vs => KeysSorted v ∧ KeysSortedItems vs

def KeysSortedFields : List (JsString × Json) → Prop
  | [] => True
  | (k, v) :: fs =>
    KeysSorted v ∧ (∀ g ∈ fs, compareUtf16CodeUnits k g.1 = .lt) ∧ KeysSortedFields fs

end

mutual

theorem sortKeys_of_sorted : ∀ {v : Json}, KeysSorted v → sortKeys v = v
  | .null, _ => by rw [sortKeys]; all_goals simp
  | .bool _, _ => by rw [sortKeys]; all_goals simp
  | .num _, _ => by rw [sortKeys]; all_goals simp
  | .str _, _ => by rw [sortKeys]; all_goals simp
  | .arr _, h => by rw [sortKeys, sortKeysItems_of_sorted h]
  | .obj _, h => by rw [sortKeys, sortKeysFields_of_sorted h]

theorem sortKeysItems_of_sorted : ∀ {vs : List Json}, KeysSortedItems vs → sortKeysItems vs = vs
  | [], _ => rfl
  | _ :: _, h => by rw [sortKeysItems, sortKeys_of_sorted h.1, sortKeysItems_of_sorted h.2]

theorem sortKeysFields_of_sorted :
    ∀ {fs : List (JsString × Json)}, KeysSortedFields fs → sortKeysFields fs = fs
  | [], _ => rfl
  | [(_, _)], h => by rw [sortKeysFields, sortKeys_of_sorted h.1]; rfl
  | (k, v) :: g :: fs, h => by
    have hk := h.2.1 g (by simp)
    rw [sortKeysFields, sortKeys_of_sorted h.1, sortKeysFields_of_sorted h.2.2, insertField,
      if_neg (by rw [hk]; simp)]

end

theorem stableStringify_of_sorted {v : Json} (h : KeysSorted v) : stableStringify v = v.render := by
  rw [stableStringify, sortKeys_of_sorted h]

theorem keysSortedFields_nodup {fs : List (JsString × Json)} (h : KeysSortedFields fs) :
    (fs.map (·.1)).Nodup := by
  induction fs with
  | nil => simp
  | cons f fs ih =>
    rw [List.map_cons, List.nodup_cons]
    refine ⟨fun hmem => ?_, ih h.2.2⟩
    obtain ⟨g, hg, he⟩ := List.mem_map.1 hmem
    have := h.2.1 g hg
    rw [compare_eq.2 he.symm] at this
    cases this

theorem keysSortedFields_iff {fs : List (JsString × Json)} : KeysSortedFields fs ↔
    (∀ f ∈ fs, KeysSorted f.2) ∧
      (fs.map (·.1)).Pairwise (fun a b => compareUtf16CodeUnits a b = .lt) := by
  induction fs with
  | nil => simp [KeysSortedFields]
  | cons f fs ih =>
    simp only [KeysSortedFields, ih, List.mem_cons, forall_eq_or_imp, List.map_cons,
      List.pairwise_cons, List.mem_map, forall_exists_index, and_imp, forall_apply_eq_imp_iff₂]
    tauto

theorem keysSortedItems_iff {vs : List Json} : KeysSortedItems vs ↔ ∀ v ∈ vs, KeysSorted v := by
  induction vs with
  | nil => simp [KeysSortedItems]
  | cons v vs ih => simp [KeysSortedItems, ih]

theorem wellFormedFields_iff {float : JsString → Json.Number} {fs : List (JsString × Json)} :
    Json.WellFormedFields float fs ↔ ∀ f ∈ fs, f.2.WellFormed float := by
  induction fs with
  | nil => simp [Json.WellFormedFields]
  | cons f fs ih => simp [Json.WellFormedFields, ih]

theorem wellFormedItems_iff {float : JsString → Json.Number} {vs : List Json} :
    Json.WellFormedItems float vs ↔ ∀ v ∈ vs, v.WellFormed float := by
  induction vs with
  | nil => simp [Json.WellFormedItems]
  | cons v vs ih => simp [Json.WellFormedItems, ih]

/-! ## Values written as they are -/

/-- A value that is its own canonical form, and that is read back from its text. -/
structure Written (float : JsString → Json.Number) (v : Json) : Prop where
  sorted : KeysSorted v
  wellFormed : v.WellFormed float

theorem Written.str {float : JsString → Json.Number} (s : JsString) : Written float (.str s) :=
  ⟨trivial, trivial⟩

theorem Written.bool {float : JsString → Json.Number} (b : Bool) : Written float (.bool b) :=
  ⟨trivial, trivial⟩

theorem Written.int {float : JsString → Json.Number} {z : ℤ} (h : z.natAbs ≤ maxSafeInteger) :
    Written float (.num (.int z)) := ⟨trivial, h⟩

theorem Written.arr {float : JsString → Json.Number} {vs : List Json} (h : ∀ v ∈ vs, Written float v) :
    Written float (.arr vs) :=
  ⟨keysSortedItems_iff.2 fun v hv => (h v hv).sorted,
    wellFormedItems_iff.2 fun v hv => (h v hv).wellFormed⟩

/-- Each key precedes the next one. -/
def orderedKeys : List JsString → Bool
  | a :: b :: ks => compareUtf16CodeUnits a b == .lt && orderedKeys (b :: ks)
  | _ => true

theorem orderedKeys_pairwise {ks : List JsString} (h : orderedKeys ks = true) :
    ks.Pairwise (fun a b => compareUtf16CodeUnits a b = .lt) := by
  induction ks with
  | nil => exact .nil
  | cons a ks ih =>
    cases ks with
    | nil => simp
    | cons b ks =>
      simp only [orderedKeys, Bool.and_eq_true, beq_iff_eq] at h
      have ih := ih h.2
      refine List.pairwise_cons.2 ⟨fun k hk => ?_, ih⟩
      rcases List.mem_cons.1 hk with rfl | hk
      · exact h.1
      · exact compare_lt_trans h.1 ((List.pairwise_cons.1 ih).1 k hk)

/-- An object whose members are listed in order. -/
theorem Written.obj {float : JsString → Json.Number} {fs : List (JsString × Json)}
    (hkeys : orderedKeys (fs.map (·.1)) = true) (h : ∀ f ∈ fs, Written float f.2) :
    Written float (.obj fs) := by
  have hsorted : KeysSortedFields fs :=
    keysSortedFields_iff.2 ⟨fun f hf => (h f hf).sorted, orderedKeys_pairwise hkeys⟩
  exact ⟨hsorted, keysSortedFields_nodup hsorted,
    wellFormedFields_iff.2 fun f hf => (h f hf).wellFormed⟩

/-! ## Bytes -/

theorem bytesToString_utf8 {s : JsString} (h : Utf16.WellFormed s) : bytesToString (utf8 s) = s := by
  obtain ⟨hd, hu⟩ := Utf16.decode_utf8 h
  rw [bytesToString, hd, List.map_map]
  have : (fun c : Option ℕ => c.getD 0xFFFD) ∘ some = id := rfl
  rw [this, List.map_id, hu]

/-- **A written line is read back** from its bytes. -/
theorem Written.read_line {float : JsString → Json.Number} {v : Json} (h : Written float v) :
    Json.parse float (bytesToString (utf8 (stableJsonLine v))) = some v := by
  have hline : Utf16.WellFormed (v.render ++ [10]) :=
    (Json.render_clean h.wellFormed).wellFormed.append (.plain (by simp))
  rw [stableJsonLine, stableStringify_of_sorted h.sorted, bytesToString_utf8 hline]
  exact Json.parse_render_line h.wellFormed

end Barbaro
