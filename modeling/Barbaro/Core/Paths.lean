import Barbaro.Core.Host

/-!
# Absolute paths

An absolute path in normal form is the list of its components. `resolve` and `join` take a
text apart at its slashes and leave no empty component, no dot and no dot-dot; `relative`
goes up to the common directory and down again.

* `resolvePath_names`: the components of a resolved path are names.
* `joinPath_name`: joining a name is going down to it.
* `relativePath_below`, `isOutside_below`: what lies below a directory, and no more.
-/

namespace Barbaro

/-- One component of a path, on top of the directory it is relative to. -/
def resolveComponent (directory : List JsString) (component : JsString) : List JsString :=
  if component = [] ∨ component = js "." then directory
  else if component = js ".." then directory.dropLast
  else directory ++ [component]

/-- `resolve(directory, path)`, as the components of an absolute path. -/
def resolvePath (directory : List JsString) (path : JsString) : List JsString :=
  (path.splitOn 47).foldl resolveComponent (if path.head? = some 47 then [] else directory)

/-- `join(directory, component)` -/
def joinPath (directory : List JsString) (component : JsString) : List JsString :=
  (component.splitOn 47).foldl resolveComponent directory

/-- The components that two paths begin with. -/
def commonPrefix : List JsString → List JsString → ℕ
  | a :: as, b :: bs => if a = b then commonPrefix as bs + 1 else 0
  | _, _ => 0

/-- `relative(from, to)` -/
def relativePath (source target : List JsString) : JsString :=
  ([47] : JsString).intercalate
    (List.replicate (source.length - commonPrefix source target) (js "..") ++
      target.drop (commonPrefix source target))

/-- `isOutside` -/
def isOutside (candidate : JsString) : Bool :=
  candidate == js ".." || (js "../").isPrefixOf candidate || candidate.head? == some 47

/-! ## Names -/

/-- What a component of a path in normal form is. -/
def isPathName (component : JsString) : Prop :=
  component ≠ [] ∧ component ≠ js "." ∧ component ≠ js ".." ∧ (47 : UInt16) ∉ component

theorem resolveComponent_names {directory : List JsString} {component : JsString}
    (h : ∀ c ∈ directory, isPathName c) (hslash : (47 : UInt16) ∉ component) :
    ∀ c ∈ resolveComponent directory component, isPathName c := by
  rw [resolveComponent]
  split_ifs with hsame hup
  · exact h
  · exact fun c hc => h c (List.dropLast_subset _ hc)
  · intro c hc
    rw [not_or] at hsame
    rcases List.mem_append.1 hc with hc | hc
    · exact h c hc
    · rw [List.mem_singleton.1 hc]
      exact ⟨hsame.1, hsame.2, hup, hslash⟩

theorem slash_not_mem_splitOn {path c : JsString} (h : c ∈ path.splitOn 47) : (47 : UInt16) ∉ c := by
  induction path generalizing c with
  | nil =>
    rw [List.splitOn_nil, List.mem_singleton] at h
    simp [h]
  | cons u path ih =>
    rw [List.splitOn_cons_eq_if_modifyHead] at h
    split at h
    · rcases List.mem_cons.1 h with rfl | h
      · simp
      · exact ih h
    · next hu =>
      obtain ⟨head, tail, hsplit⟩ := List.exists_cons_of_ne_nil (List.splitOn_ne_nil 47 path)
      rw [hsplit, List.modifyHead_cons, List.mem_cons] at h
      rcases h with rfl | h
      · rw [List.mem_cons, not_or]
        exact ⟨fun heq => hu (by simp [heq]), ih (by rw [hsplit]; simp)⟩
      · exact ih (by rw [hsplit]; simp [h])

/-- **The components of a resolved path** are names. -/
theorem resolvePath_names {directory : List JsString} (h : ∀ c ∈ directory, isPathName c) (path : JsString) :
    ∀ c ∈ resolvePath directory path, isPathName c := by
  have hfold : ∀ (components : List JsString) (start : List JsString), (∀ c ∈ start, isPathName c) →
      (∀ c ∈ components, (47 : UInt16) ∉ c) → ∀ c ∈ components.foldl resolveComponent start, isPathName c := by
    intro components
    induction components with
    | nil => exact fun start hstart _ => hstart
    | cons x components ih =>
      intro start hstart hall
      exact ih _ (resolveComponent_names hstart (hall x (by simp))) fun c hc => hall c (by simp [hc])
  refine hfold _ _ ?_ fun c hc => slash_not_mem_splitOn hc
  split
  · simp
  · exact h

/-- **Joining a name** is going down to it. -/
theorem joinPath_name {c : JsString} (h : isPathName c) (directory : List JsString) :
    joinPath directory c = directory ++ [c] := by
  rw [joinPath, List.splitOn_eq_singleton h.2.2.2, List.foldl_cons, List.foldl_nil, resolveComponent,
    if_neg (by simp [h.1, h.2.1]), if_neg h.2.2.1]

theorem joinPath_names {names : List JsString} (h : ∀ c ∈ names, isPathName c) (directory : List JsString) :
    names.foldl joinPath directory = directory ++ names := by
  induction names generalizing directory with
  | nil => rw [List.foldl_nil, List.append_nil]
  | cons c names ih =>
    rw [List.foldl_cons, joinPath_name (h c (by simp)), ih (fun x hx => h x (by simp [hx])), List.append_assoc,
      List.singleton_append]

/-! ## Relative paths -/

theorem commonPrefix_append (directory rest : List JsString) :
    commonPrefix directory (directory ++ rest) = directory.length := by
  induction directory with
  | nil => cases rest <;> rfl
  | cons c directory ih => rw [List.cons_append, commonPrefix, if_pos rfl, ih, List.length_cons]

theorem relativePath_below (directory rest : List JsString) :
    relativePath directory (directory ++ rest) = ([47] : JsString).intercalate rest := by
  rw [relativePath, commonPrefix_append, Nat.sub_self, List.replicate_zero, List.nil_append, List.drop_left]

theorem head_intercalate (c : JsString) (rest : List JsString) :
    ∃ tail, ([47] : JsString).intercalate (c :: rest) = c ++ tail ∧ (tail = [] ∨ tail.head? = some 47) := by
  cases rest with
  | nil => exact ⟨[], by simp, Or.inl rfl⟩
  | cons d rest => exact ⟨47 :: ([47] : JsString).intercalate (d :: rest), by simp [List.intercalate_cons_cons], Or.inr rfl⟩

/-- What lies below a directory is not outside it. -/
theorem isOutside_below {directory rest : List JsString} (h : ∀ c ∈ rest, isPathName c) :
    isOutside (relativePath directory (directory ++ rest)) = false := by
  rw [relativePath_below]
  cases rest with
  | nil => decide
  | cons c rest =>
    have hc := h c (by simp)
    obtain ⟨tail, htext, htail⟩ := head_intercalate c rest
    obtain ⟨u, us, rfl⟩ := List.exists_cons_of_ne_nil hc.1
    have hdots : js ".." = [46, 46] := by decide
    have hup : js "../" = [46, 46, 47] := by decide
    have hslash : u ≠ 47 := fun heq => hc.2.2.2 (by simp [heq])
    have hdot : js "." = [46] := by decide
    rw [htext, isOutside, hdots, hup]
    simp only [Bool.or_eq_false_iff, beq_eq_false_iff_ne, List.cons_append, List.head?_cons, ne_eq, Option.some.injEq]
    have hname := hc.2.2.1
    have hone := hc.2.1
    rw [hdots] at hname
    rw [hdot] at hone
    refine ⟨⟨fun heq => ?_, ?_⟩, hslash⟩
    · rw [List.cons.injEq] at heq
      obtain ⟨rfl, heq⟩ := heq
      rcases htail with rfl | htail
      · rw [List.append_nil] at heq
        exact hname (by rw [heq])
      · cases us with
        | nil =>
          exact hone rfl
        | cons x us =>
          rw [List.cons_append, List.cons.injEq, List.append_eq_nil_iff] at heq
          rw [heq.2.2] at htail
          cases htail
    · rw [Bool.eq_false_iff, ne_eq, List.isPrefixOf_iff_prefix]
      rintro ⟨more, hmore⟩
      cases us with
      | nil =>
        simp only [List.cons_append, List.nil_append, List.cons.injEq] at hmore
        exact hone (by rw [← hmore.1])
      | cons x us =>
        simp only [List.cons_append, List.nil_append, List.cons.injEq] at hmore
        obtain ⟨rfl, rfl, hmore⟩ := hmore
        cases us with
        | nil => exact hname rfl
        | cons y us =>
          rw [List.cons_append, List.cons.injEq] at hmore
          exact hc.2.2.2 (by simp [← hmore.1])

end Barbaro
