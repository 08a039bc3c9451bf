import Barbaro.Lib.JsonRoundTrip

/-!
# Keys of a value

The reader builds an object by setting its members one after another, so that no object
of a value it returns has a key twice (`parse_uniqueKeys`). In such an object the values
of its members are the values of its keys (`lookup_iff_mem`).

* `isPlain`: a check that a value without doubles is well-formed.
-/

namespace Json

mutual

/-- No object in the value has a key twice. -/
def UniqueKeys : Json → Prop
  | .arr vs => UniqueKeysItems vs
  | .obj fs => (fs.map (·.1)).Nodup ∧ UniqueKeysFields fs
  | _ => True

def UniqueKeysItems : List Json → Prop
  | [] => True
  | v :: vs => UniqueKeys v ∧ UniqueKeysItems vs

def UniqueKeysFields : List (Text × Json) → Prop
  | [] => True
  | (_, v) :: fs => UniqueKeys v ∧ UniqueKeysFields fs

end

/-! ## Objects that are built by setting members -/

theorem setField_uniqueKeysFields {k : Text} {v : Json} {fs : List (Text × Json)} (hv : v.UniqueKeys)
    (h : UniqueKeysFields fs) : UniqueKeysFields (setField k v fs) := by
  induction fs with
  | nil => exact ⟨hv, trivial⟩
  | cons f fs ih =>
    by_cases hf : f.1 = k
    · rw [setField, if_pos hf]
      exact ⟨hv, h.2⟩
    · rw [setField, if_neg hf]
      exact ⟨h.1, ih h.2⟩

theorem assign_uniqueKeys {fs : List (Text × Json)} (h : UniqueKeysFields fs) :
    (Json.obj (assign fs)).UniqueKeys := by
  -- the object built so far, whatever it is
  have key : ∀ (fs done : List (Text × Json)), UniqueKeysFields fs → (Json.obj done).UniqueKeys →
      (Json.obj (fs.foldl (fun o f => setField f.1 f.2 o) done)).UniqueKeys := by
    intro fs
    induction fs with
    | nil => exact fun done _ hdone => hdone
    | cons f fs ih =>
      intro done hfs hdone
      exact ih _ hfs.2 ⟨setField_nodup hdone.1, setField_uniqueKeysFields hfs.1 hdone.2⟩
  exact key fs [] h ⟨List.nodup_nil, trivial⟩

/-! ## The reader -/

section
variable {float : Text → Number}

theorem keyword_uniqueKeys {k s r : Text} {v w : Json} (hw : w.UniqueKeys)
    (h : keyword k w s = some (v, r)) : v.UniqueKeys := by
  unfold keyword at h
  split at h
  · cases h
    exact hw
  · cases h

/-- One statement for the three readers, by induction on the nesting they may use. -/
theorem read_uniqueKeys (n : ℕ) :
    (∀ s v r, parseValue float n s = some (v, r) → v.UniqueKeys) ∧
    (∀ s vs r, parseItems float n s = some (vs, r) → UniqueKeysItems vs) ∧
    (∀ s fs r, parseFields float n s = some (fs, r) → UniqueKeysFields fs) := by
  induction n with
  | zero =>
    refine ⟨?_, ?_, ?_⟩
    · intro s v r h
      simp [parseValue] at h
    · intro s vs r h
      simp [parseItems] at h
    · intro s fs r h
      simp [parseFields] at h
  | succ n ih =>
    obtain ⟨ihv, ihi, ihf⟩ := ih
    refine ⟨?_, ?_, ?_⟩
    · intro s v r h
      rw [parseValue] at h
      split at h
      · cases h
      · next u t _ =>
        split_ifs at h
        · obtain ⟨p, -, hp⟩ := Option.map_eq_some_iff.1 h
          cases hp
          trivial
        · split at h
          · cases h
          · split_ifs at h
            · cases h
              trivial
            · obtain ⟨p, hitems, hp⟩ := Option.map_eq_some_iff.1 h
              cases hp
              exact ihi _ _ _ hitems
        · split at h
          · cases h
          · split_ifs at h
            · cases h
              exact ⟨List.nodup_nil, trivial⟩
            · obtain ⟨p, hfields, hp⟩ := Option.map_eq_some_iff.1 h
              cases hp
              exact assign_uniqueKeys (ihf _ _ _ hfields)
        · refine keyword_uniqueKeys ?_ h
          trivial
        · refine keyword_uniqueKeys ?_ h
          trivial
        · refine keyword_uniqueKeys ?_ h
          trivial
        · obtain ⟨p, -, hp⟩ := Option.map_eq_some_iff.1 h
          cases hp
          trivial
    · intro s vs r h
      rw [parseItems] at h
      split at h
      · cases h
      · next v t hv =>
        split at h
        · cases h
        · split_ifs at h
          · obtain ⟨p, hitems, hp⟩ := Option.map_eq_some_iff.1 h
            cases hp
            exact ⟨ihv _ _ _ hv, ihi _ _ _ hitems⟩
          · cases h
            exact ⟨ihv _ _ _ hv, trivial⟩
    · intro s fs r h
      rw [parseFields] at h
      split at h
      · cases h
      · next k t _ =>
        split at h
        · cases h
        · next v t' hv =>
          split at h
          · cases h
          · split_ifs at h
            · obtain ⟨p, hfields, hp⟩ := Option.map_eq_some_iff.1 h
              cases hp
              exact ⟨ihv _ _ _ hv, ihf _ _ _ hfields⟩
            · cases h
              exact ⟨ihv _ _ _ hv, trivial⟩

/-- **A value that was read has no key twice.** -/
theorem parse_uniqueKeys {s : Text} {v : Json} (h : parse float s = some v) : v.UniqueKeys := by
  unfold parse at h
  split at h
  · next w r hread =>
    split_ifs at h
    cases h
    exact (read_uniqueKeys (s.length + 1)).1 _ _ _ hread
  · cases h

end

/-! ## Members -/

variable {k : Text} {v : Json} {fs : List (Text × Json)}

theorem lookup_iff_mem (h : (fs.map (·.1)).Nodup) : lookup k fs = some v ↔ (k, v) ∈ fs := by
  induction fs with
  | nil => simp [lookup]
  | cons f fs ih =>
    obtain ⟨k', w⟩ := f
    rw [List.map_cons, List.nodup_cons] at h
    rw [lookup, List.mem_cons, Prod.mk.injEq]
    by_cases hk : k' = k
    · have hnot : (k, v) ∉ fs := by
        intro hmem
        exact h.1 (List.mem_map.2 ⟨(k, v), hmem, hk.symm⟩)
      simp only [hk, if_true, Option.some.injEq, true_and, hnot, or_false]
      exact eq_comm
    · simp only [if_neg hk, ih h.2, Ne.symm hk, false_and, false_or]

theorem UniqueKeysFields.of_mem (h : UniqueKeysFields fs) (hmem : (k, v) ∈ fs) : v.UniqueKeys := by
  induction fs with
  | nil => cases hmem
  | cons f fs ih =>
    rcases List.mem_cons.1 hmem with rfl | hmem
    · exact h.1
    · exact ih h.2 hmem

/-- A member of a value without repeated keys is such a value. -/
theorem UniqueKeys.get {o : Json} (h : o.UniqueKeys) (hget : o.get k = some v) : v.UniqueKeys := by
  cases o with
  | obj fs => exact h.2.of_mem ((lookup_iff_mem h.1).1 hget)
  | null => cases hget
  | bool b => cases hget
  | num n => cases hget
  | str s => cases hget
  | arr vs => cases hget

/-! ## Plain values -/

mutual

/-- Every number is a safe integer and no object has a key twice. -/
def isPlain : Json → Bool
  | .num (.int z) => z.natAbs ≤ maxSafe
  | .num (.other _) => false
  | .arr vs => isPlainItems vs
  | .obj fs => decide (fs.map (·.1)).Nodup && isPlainFields fs
  | _ => true

def isPlainItems : List Json → Bool
  | [] => true
  | v :: vs => isPlain v && isPlainItems vs

def isPlainFields : List (Text × Json) → Bool
  | [] => true
  | (_, v) :: fs => isPlain v && isPlainFields fs

end

mutual

theorem isPlain_wellFormed {float : Text → Number} : ∀ {v : Json}, isPlain v = true → v.WellFormed float
  | .null, _ => trivial
  | .bool _, _ => trivial
  | .str _, _ => trivial
  | .num (.int z), h => by simpa [isPlain, WellFormed, Number.Canonical] using h
  | .num (.other _), h => by simp [isPlain] at h
  | .arr vs, h => isPlainItems_wellFormed (by simpa [isPlain] using h)
  | .obj fs, h => by
    simp only [isPlain, Bool.and_eq_true, decide_eq_true_eq] at h
    exact ⟨h.1, isPlainFields_wellFormed h.2⟩

theorem isPlainItems_wellFormed {float : Text → Number} :
    ∀ {vs : List Json}, isPlainItems vs = true → WellFormedItems float vs
  | [], _ => trivial
  | v :: vs, h => by
    simp only [isPlainItems, Bool.and_eq_true] at h
    exact ⟨isPlain_wellFormed h.1, isPlainItems_wellFormed h.2⟩

theorem isPlainFields_wellFormed {float : Text → Number} :
    ∀ {fs : List (Text × Json)}, isPlainFields fs = true → WellFormedFields float fs
  | [], _ => trivial
  | (_, v) :: fs, h => by
    simp only [isPlainFields, Bool.and_eq_true] at h
    exact ⟨isPlain_wellFormed h.1, isPlainFields_wellFormed h.2⟩

end

end Json
