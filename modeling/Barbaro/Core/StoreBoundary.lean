import Barbaro.Core.SafeStore
import Barbaro.Lib.Outcome

/-!
# What the boundary of the store confines

The loop keeps one fact: the path so far resolves to the real path of the anchor followed by
the names. No component may be a link, so the next name is where it says; a directory that
is made on the way does not change how anything resolved.

* `enter_cases`, `inspectChain_spec`: a step down, and the loop.
* `ensureDirectory_ok`: with nothing in the way, the directory is made.
* `readBounded_eq`: a file is read whole if it fits, whatever each read gives.
* `findBarbaroStoreLocation_eq`: the store of a path, and the way back.
* `store_confined`: all of it, for every tree.
-/

namespace Barbaro.SafeStore

open FileTree

/-! ## Components -/

theorem isValidComponent_name {c : JsString} (h : isValidComponent c = true) : isPathName c := by
  simp only [isValidComponent, Bool.and_eq_true, bne_iff_ne, ne_eq, Bool.not_eq_true', List.contains_eq_mem,
    decide_eq_false_iff_not, List.length_eq_zero_iff] at h
  exact ⟨h.1.1.1.1.1, h.1.1.1.1.2, h.1.1.1.2, h.1.1.2⟩

theorem mapM_validate {components requested : List JsString}
    (h : components.mapM validateComponent = .ok requested) :
    requested = components ∧ components.all isValidComponent = true := by
  induction components generalizing requested with
  | nil =>
    cases h
    exact ⟨rfl, rfl⟩
  | cons c components ih =>
    rw [List.mapM_cons] at h
    obtain ⟨c', hc, h⟩ := Outcome.bind_ok.1 h
    obtain ⟨rest, hrest, h⟩ := Outcome.bind_ok.1 h
    rw [validateComponent] at hc
    split at hc
    swap
    · cases hc
    next hvalid =>
    cases hc
    cases h
    obtain ⟨rfl, hall⟩ := ih hrest
    exact ⟨rfl, by rw [List.all_cons, hvalid, hall]; rfl⟩

theorem mapM_validate_ok {components : List JsString} (h : components.all isValidComponent = true) :
    components.mapM validateComponent = .ok components := by
  induction components with
  | nil => rfl
  | cons c components ih =>
    rw [List.all_cons, Bool.and_eq_true] at h
    rw [List.mapM_cons, validateComponent, if_pos h.1, ih h.2]
    rfl

theorem names_of_valid {components : List JsString} (h : components.all isValidComponent = true) :
    ∀ c ∈ components, isPathName c :=
  fun c hc => isValidComponent_name (List.all_eq_true.1 h c hc)

namespace SafeStoreBoundary

variable {b : SafeStoreBoundary}

theorem rootPath_eq (b : SafeStoreBoundary) : b.rootPath = b.anchorPath ++ b.rootComponents :=
  joinPath_names (names_of_valid b.valid) b.anchorPath

theorem pathFor_ok {components : List JsString} (h : components.all isValidComponent = true) :
    b.pathFor components = .ok (b.anchorPath ++ b.rootComponents ++ components) := by
  rw [pathFor, mapM_validate_ok h, Outcome.ok_bind, joinPath_names (names_of_valid h), rootPath_eq]
  rfl

/-! ## The chain -/

/-- New directories along a chain, and nothing else. -/
def OnlyAlong (t t' : FileTree.Tree JsString) (place : Path) (chain : List JsString) : Prop :=
  ∀ p, t'.entry p = t.entry p ∨
    t.entry p = none ∧ t'.entry p = some .dir ∧ ∃ k, 0 < k ∧ p = place ++ chain.take k

theorem OnlyAlong.refl (t : FileTree.Tree JsString) (place : Path) (chain : List JsString) : OnlyAlong t t place chain :=
  fun _ => Or.inl rfl

theorem OnlyAlong.more {t t' : FileTree.Tree JsString} {place : Path} {chain : List JsString} (h : OnlyAlong t t' place chain) :
    ∀ p e, t.entry p = some e → t'.entry p = some e := by
  intro p e he
  rcases h p with heq | ⟨hnone, -⟩
  · rw [heq, he]
  · rw [hnone] at he
    cases he

/-- **One step down** from a directory that the path so far resolves to. -/
theorem enter_cases {create : Bool} {t : FileTree.Tree JsString} {current place : Path} {c : JsString}
    (hresolve : t.resolve current = .ok place) (hdir : t.entry place = some .dir) :
    (∃ e, t.entry (place ++ [c]) = some e ∧ enter create t (current ++ [c]) = (t, .ok (some e))) ∨
      t.entry (place ++ [c]) = none ∧
        (create = false ∧ enter create t (current ++ [c]) = (t, .ok none) ∨
          create = true ∧ ∃ t', enter create t (current ++ [c]) = (t', .ok (some .dir)) ∧
            ∀ p, t'.entry p = if p = place ++ [c] then some .dir else t.entry p) := by
  have hlstat := t.lstat_below hresolve hdir (a := c)
  cases hentry : t.entry (place ++ [c]) with
  | some e =>
    rw [FileTree.Tree.entryAt, hentry] at hlstat
    exact Or.inl ⟨e, rfl, by rw [enter, hlstat]⟩
  | none =>
    rw [FileTree.Tree.entryAt, hentry] at hlstat
    refine Or.inr ⟨rfl, ?_⟩
    cases create with
    | false => exact Or.inl ⟨rfl, by rw [enter, hlstat]; rfl⟩
    | true =>
      obtain ⟨t', hmkdir, hentries⟩ := FileTree.Tree.mkdir_below hresolve hdir hentry
      have hmore : ∀ p e, t.entry p = some e → t'.entry p = some e := by
        intro p e he
        rw [hentries, if_neg (by rintro rfl; rw [hentry] at he; cases he), he]
      have hnew := t'.lstat_below (FileTree.Tree.resolve_mono hmore hresolve) (hmore _ _ hdir) (a := c)
      rw [FileTree.Tree.entryAt, hentries, if_pos rfl] at hnew
      refine Or.inr ⟨rfl, t', ?_, hentries⟩
      rw [enter, hlstat]
      simp only [if_true, hmkdir, hnew]
      rfl

theorem OnlyAlong.cons {t t' t'' : FileTree.Tree JsString} {place : Path} {c : JsString} {chain : List JsString}
    (h : ∀ p, t'.entry p = t.entry p ∨ t.entry p = none ∧ t'.entry p = some .dir ∧ p = place ++ [c])
    (h' : OnlyAlong t' t'' (place ++ [c]) chain) : OnlyAlong t t'' place (c :: chain) := by
  have hfirst : ∃ k, 0 < k ∧ place ++ [c] = place ++ (c :: chain).take k := ⟨1, Nat.one_pos, by simp⟩
  intro p
  rcases h' p with heq | ⟨hnone, hsome, k, -, rfl⟩
  · rw [heq]
    rcases h p with heq' | ⟨hnone, hsome, rfl⟩
    · exact Or.inl heq'
    · exact Or.inr ⟨hnone, hsome, hfirst⟩
  · refine Or.inr ⟨?_, hsome, k + 1, Nat.succ_pos k, by rw [List.take_succ_cons, List.append_assoc]; rfl⟩
    rcases h (place ++ [c] ++ chain.take k) with heq | ⟨hbefore, -⟩
    · rw [← heq, hnone]
    · exact hbefore

/-- **The loop over the chain**: it adds directories along the chain only, and where it comes
to its end, what it was asked for is where its name says. -/
theorem inspectChain_spec {create : Bool} {canonicalAnchor : Path} {rootLength : ℕ} {chain : List JsString}
    (hvalid : ∀ c ∈ chain, isPathName c) {index : ℕ} {current place : Path} {canonicalRoot : Option Path}
    {t : FileTree.Tree JsString} (hresolve : t.resolve current = .ok place) (hdir : t.entry place = some .dir) :
    let r := inspectChain create canonicalAnchor rootLength chain index current canonicalRoot t
    OnlyAlong t r.1 place chain ∧
      (create = false → r.1 = t) ∧
      ∀ path root, r.2 = .ok (some (path, root)) →
        path = current ++ chain ∧ r.1.resolve path = .ok (place ++ chain) ∧ r.1.entry (place ++ chain) = some .dir := by
  induction chain generalizing index current place canonicalRoot t with
  | nil =>
    refine ⟨OnlyAlong.refl t place [], fun _ => rfl, fun path root h => ?_⟩
    simp only [inspectChain, Except.ok.injEq, Option.some.injEq, Prod.mk.injEq] at h
    obtain ⟨rfl, -⟩ := h
    rw [List.append_nil, List.append_nil]
    exact ⟨rfl, hresolve, hdir⟩
  | cons c chain ih =>
    have hname := hvalid c (by simp)
    have hrest : ∀ c ∈ chain, isPathName c := fun x hx => hvalid x (by simp [hx])
    -- what the step down leaves, and the rest of the chain from there
    have hstep : ∀ {t' : FileTree.Tree JsString}, (∀ p, t'.entry p = t.entry p ∨
          t.entry p = none ∧ t'.entry p = some .dir ∧ p = place ++ [c]) →
        (create = false → t' = t) → t'.entry (place ++ [c]) = some .dir →
        enter create t (current ++ [c]) = (t', .ok (some .dir)) →
        let r := inspectChain create canonicalAnchor rootLength (c :: chain) index current canonicalRoot t
        OnlyAlong t r.1 place (c :: chain) ∧ (create = false → r.1 = t) ∧
          ∀ path root, r.2 = .ok (some (path, root)) → path = current ++ c :: chain ∧
            r.1.resolve path = .ok (place ++ c :: chain) ∧ r.1.entry (place ++ c :: chain) = some .dir := by
      intro t' honly hsame hnew henter
      have hmore : ∀ p e, t.entry p = some e → t'.entry p = some e := by
        intro p e he
        rcases honly p with heq | ⟨hnone, -⟩
        · rw [heq, he]
        · rw [hnone] at he
          cases he
      have hbelow : t'.resolve (current ++ [c]) = .ok (place ++ [c]) :=
        FileTree.Tree.resolve_below (FileTree.Tree.resolve_mono hmore hresolve) (hmore _ _ hdir) hnew (by simp)
      simp only [inspectChain, joinPath_name hname, henter, hbelow]
      split
      · refine ⟨OnlyAlong.cons honly (OnlyAlong.refl _ _ _), hsame, fun path root h => ?_⟩
        cases h
      · obtain ⟨h1, h2, h3⟩ := @ih hrest (index + 1) (current ++ [c]) (place ++ [c])
          (if index + 1 = rootLength then some (place ++ [c]) else canonicalRoot) t' hbelow hnew
        refine ⟨OnlyAlong.cons honly h1, fun hc => (h2 hc).trans (hsame hc), fun path root h => ?_⟩
        have hend := h3 path root h
        rw [List.append_assoc, List.append_assoc, List.singleton_append] at hend
        exact hend
    rcases @enter_cases create t current place c hresolve hdir with
      ⟨e, he, henter⟩ | ⟨hnone, ⟨hcreate, henter⟩ | ⟨hcreate, t', henter, hentries⟩⟩
    · cases e with
      | dir => exact hstep (fun _ => Or.inl rfl) (fun _ => rfl) he henter
      | file content =>
        simp only [inspectChain, joinPath_name hname, henter]
        exact ⟨OnlyAlong.refl _ _ _, fun _ => trivial, fun _ _ h => nomatch h⟩
      | link absolute target =>
        simp only [inspectChain, joinPath_name hname, henter]
        exact ⟨OnlyAlong.refl _ _ _, fun _ => trivial, fun _ _ h => nomatch h⟩
      | other =>
        simp only [inspectChain, joinPath_name hname, henter]
        exact ⟨OnlyAlong.refl _ _ _, fun _ => trivial, fun _ _ h => nomatch h⟩
    · simp only [inspectChain, joinPath_name hname, henter]
      exact ⟨OnlyAlong.refl _ _ _, fun _ => trivial, fun _ _ h => nomatch h⟩
    · refine hstep (fun p => ?_) (fun hc => by rw [hcreate] at hc; cases hc) (by rw [hentries, if_pos rfl]) henter
      rw [hentries]
      split
      · next heq => exact Or.inr ⟨by rw [heq, hnone], rfl, heq⟩
      · exact Or.inl rfl

/-- **With nothing in the way** the loop comes to its end. -/
theorem inspectChain_ok {canonicalAnchor base rest : Path} {rootLength : ℕ} {chain : List JsString}
    (hvalid : ∀ c ∈ chain, isPathName c) {index : ℕ} {current place : Path} {canonicalRoot : Option Path}
    {t : FileTree.Tree JsString} (hresolve : t.resolve current = .ok place) (hdir : t.entry place = some .dir)
    (hfree : ∀ k, t.entry (place ++ chain.take k) = none ∨ t.entry (place ++ chain.take k) = some .dir)
    (hplace : place = base ++ rest) (hrest : ∀ c ∈ rest, isPathName c)
    (hbase : canonicalRoot.getD canonicalAnchor = base)
    (hroot : canonicalRoot.isSome ∨ index < rootLength ∧ rootLength ≤ index + chain.length) :
    ∃ t' root base' rest', inspectChain true canonicalAnchor rootLength chain index current canonicalRoot t =
        (t', .ok (some (current ++ chain, some root))) ∧
      root = base' ∧ place ++ chain = base' ++ rest' ∧ ∀ c ∈ rest', isPathName c := by
  induction chain generalizing index current place canonicalRoot base rest t with
  | nil =>
    obtain ⟨root, rfl⟩ : ∃ root, canonicalRoot = some root := by
      rcases hroot with hsome | ⟨hlt, hle⟩
      · exact Option.isSome_iff_exists.1 hsome
      · rw [List.length_nil] at hle
        omega
    refine ⟨t, root, base, rest, ?_, hbase, by rw [List.append_nil, hplace], hrest⟩
    rw [inspectChain, List.append_nil]
  | cons c chain ih =>
    have hname := hvalid c (by simp)
    have hnames : ∀ c ∈ chain, isPathName c := fun x hx => hvalid x (by simp [hx])
    -- the component is there, or is made
    obtain ⟨t', henter, hsome, hkept⟩ : ∃ t', enter true t (current ++ [c]) = (t', .ok (some .dir)) ∧
        t'.entry (place ++ [c]) = some .dir ∧
          ∀ p, t'.entry p = t.entry p ∨ t.entry p = none ∧ t'.entry p = some .dir := by
      rcases @enter_cases true t current place c hresolve hdir with
        ⟨e, he, henter⟩ | ⟨hnone, ⟨hcreate, -⟩ | ⟨-, t', henter, hentries⟩⟩
      · have hone := hfree 1
        rw [List.take_succ_cons, List.take_zero, he] at hone
        rcases hone with hone | hone
        · cases hone
        · cases hone
          exact ⟨t, henter, he, fun p => Or.inl rfl⟩
      · cases hcreate
      · refine ⟨t', henter, by rw [hentries, if_pos rfl], fun p => ?_⟩
        rw [hentries]
        split
        · next heq => exact Or.inr ⟨by rw [heq, hnone], rfl⟩
        · exact Or.inl rfl
    have hmore : ∀ p e, t.entry p = some e → t'.entry p = some e := by
      intro p e he
      rcases hkept p with heq | ⟨hnone, -⟩
      · rw [heq, he]
      · rw [hnone] at he
        cases he
    have hbelow : t'.resolve (current ++ [c]) = .ok (place ++ [c]) :=
      FileTree.Tree.resolve_below (FileTree.Tree.resolve_mono hmore hresolve) (hmore _ _ hdir) hsome (by simp)
    have hinside : isOutside (relativePath (canonicalRoot.getD canonicalAnchor) (place ++ [c])) = false := by
      rw [hbase, hplace, List.append_assoc]
      refine isOutside_below fun x hx => ?_
      rcases List.mem_append.1 hx with hx | hx
      · exact hrest x hx
      · rw [List.mem_singleton.1 hx]
        exact hname
    have hfree' : ∀ k, t'.entry (place ++ [c] ++ chain.take k) = none ∨
        t'.entry (place ++ [c] ++ chain.take k) = some .dir := by
      intro k
      have hk := hfree (k + 1)
      rw [List.take_succ_cons, ← List.singleton_append, ← List.append_assoc] at hk
      rcases hkept (place ++ [c] ++ chain.take k) with heq | ⟨-, hdir'⟩
      · rw [heq]
        exact hk
      · exact Or.inr hdir'
    have happend : current ++ [c] ++ chain = current ++ c :: chain := by rw [List.append_assoc, List.singleton_append]
    have hplaces : place ++ [c] ++ chain = place ++ c :: chain := by rw [List.append_assoc, List.singleton_append]
    have hstep : inspectChain true canonicalAnchor rootLength (c :: chain) index current canonicalRoot t =
        inspectChain true canonicalAnchor rootLength chain (index + 1) (current ++ [c])
          (if index + 1 = rootLength then some (place ++ [c]) else canonicalRoot) t' := by
      simp only [inspectChain, joinPath_name hname, henter, hbelow, hinside, Bool.false_eq_true, if_false]
    rw [hstep, ← happend, ← hplaces]
    by_cases hindex : index + 1 = rootLength
    · rw [if_pos hindex]
      exact ih hnames hbelow hsome hfree' (List.append_nil _).symm (by simp) rfl (Or.inl rfl)
    · rw [if_neg hindex]
      refine ih hnames hbelow hsome hfree' (by rw [hplace, List.append_assoc]) (fun x hx => ?_) hbase ?_
      · rcases List.mem_append.1 hx with hx | hx
        · exact hrest x hx
        · rw [List.mem_singleton.1 hx]
          exact hname
      · rcases hroot with hsome | ⟨hlt, hle⟩
        · exact Or.inl hsome
        · rw [List.length_cons] at hle
          exact Or.inr ⟨by omega, by omega⟩

/-- What a call that succeeded found or made. -/
structure Confined (b : SafeStoreBoundary) (t t' : FileTree.Tree JsString) (components : List JsString) (path : Path) : Prop where
  valid : components.all isValidComponent = true
  named : path = b.anchorPath ++ b.rootComponents ++ components
  /-- The real path is that of the anchor, and then the names. -/
  real : ∃ anchor, t.resolve b.anchorPath = .ok anchor ∧ t'.resolve b.anchorPath = .ok anchor ∧
    t'.resolve path = .ok (anchor ++ b.rootComponents ++ components) ∧
    t'.entry (anchor ++ b.rootComponents ++ components) = some .dir

/-- What a call may have added, whatever became of it. -/
def Along (b : SafeStoreBoundary) (t t' : FileTree.Tree JsString) (components : List JsString) : Prop :=
  ∀ p, t'.entry p = t.entry p ∨ t.entry p = none ∧ t'.entry p = some .dir ∧
    ∃ anchor k, t.resolve b.anchorPath = .ok anchor ∧ 0 < k ∧ p = anchor ++ (b.rootComponents ++ components).take k

theorem inspectDirectoryChain_spec (b : SafeStoreBoundary) (create : Bool) (components : List JsString)
    (t : FileTree.Tree JsString) :
    let r := b.inspectDirectoryChain create components t
    Along b t r.1 components ∧ (create = false → r.1 = t) ∧
      ∀ path, r.2 = .ok (some path) → Confined b t r.1 components path := by
  have hsame : Along b t t components := fun _ => Or.inl rfl
  simp only [inspectDirectoryChain]
  split
  · exact ⟨hsame, fun _ => rfl, fun _ h => nomatch h⟩
  next requested hmap =>
  obtain ⟨rfl, hvalid⟩ := mapM_validate hmap
  split
  · exact ⟨hsame, fun _ => rfl, fun _ h => nomatch h⟩
  swap
  · exact ⟨hsame, fun _ => rfl, fun _ h => nomatch h⟩
  next hstat =>
  obtain ⟨anchor, hanchor, hdir⟩ := FileTree.Tree.stat_dir hstat
  rw [hanchor]
  dsimp only
  have hnames : ∀ c ∈ b.rootComponents ++ requested, isPathName c :=
    names_of_valid (by rw [List.all_append, b.valid, hvalid]; rfl)
  obtain ⟨honly, hread, hend⟩ := @inspectChain_spec create anchor b.rootComponents.length
    (b.rootComponents ++ requested) hnames 0 b.anchorPath anchor none t hanchor hdir
  have halong : ∀ {t'}, OnlyAlong t t' anchor (b.rootComponents ++ requested) → Along b t t' requested := by
    intro t' h p
    rcases h p with heq | ⟨hnone, hsome, k, hk, hp⟩
    · exact Or.inl heq
    · exact Or.inr ⟨hnone, hsome, anchor, k, hanchor, hk, hp⟩
  generalize inspectChain create anchor b.rootComponents.length (b.rootComponents ++ requested) 0 b.anchorPath none t =
    r at honly hread hend ⊢
  obtain ⟨t', e | _ | ⟨current, _ | canonicalRoot⟩⟩ := r
  · exact ⟨halong honly, hread, fun _ h => nomatch h⟩
  · exact ⟨halong honly, hread, fun _ h => nomatch h⟩
  · exact ⟨halong honly, hread, fun _ h => nomatch h⟩
  · obtain ⟨rfl, hresolve, hnew⟩ := hend current (some canonicalRoot) rfl
    dsimp only at honly hread hresolve hnew ⊢
    rw [hresolve]
    dsimp only
    split
    · exact ⟨halong honly, hread, fun _ h => nomatch h⟩
    · refine ⟨halong honly, hread, fun path h => ?_⟩
      cases h
      have hplace : anchor ++ (b.rootComponents ++ requested) = anchor ++ b.rootComponents ++ requested :=
        (List.append_assoc _ _ _).symm
      have hpath : b.anchorPath ++ (b.rootComponents ++ requested) = b.anchorPath ++ b.rootComponents ++ requested :=
        (List.append_assoc _ _ _).symm
      rw [hplace, hpath] at hresolve
      rw [hplace] at hnew
      exact ⟨hvalid, hpath, anchor, hanchor, FileTree.Tree.resolve_mono honly.more hanchor, by rw [hpath]; exact hresolve, hnew⟩

theorem ensureDirectory_spec (b : SafeStoreBoundary) (components : List JsString) (t : FileTree.Tree JsString) :
    Along b t (b.ensureDirectory components t).1 components ∧
      ∀ path, (b.ensureDirectory components t).2 = .ok path →
        Confined b t (b.ensureDirectory components t).1 components path := by
  obtain ⟨halong, -, hend⟩ := inspectDirectoryChain_spec b true components t
  rw [ensureDirectory]
  generalize b.inspectDirectoryChain true components t = r at halong hend ⊢
  obtain ⟨t', e | _ | path⟩ := r
  · exact ⟨halong, fun _ h => nomatch h⟩
  · exact ⟨halong, fun _ h => nomatch h⟩
  · refine ⟨halong, fun path' h => ?_⟩
    cases h
    exact hend path rfl

/-- **With nothing in the way** `ensureDirectory` succeeds. -/
theorem ensureDirectory_ok {b : SafeStoreBoundary} {components : List JsString} {t : FileTree.Tree JsString} {anchor : Path}
    (hvalid : components.all isValidComponent = true) (hanchor : t.resolve b.anchorPath = .ok anchor)
    (hdir : t.entry anchor = some .dir)
    (hfree : ∀ k, t.entry (anchor ++ (b.rootComponents ++ components).take k) = none ∨
      t.entry (anchor ++ (b.rootComponents ++ components).take k) = some .dir) :
    (b.ensureDirectory components t).2 = .ok (b.anchorPath ++ b.rootComponents ++ components) := by
  have hnames : ∀ c ∈ b.rootComponents ++ components, isPathName c :=
    names_of_valid (by rw [List.all_append, b.valid, hvalid]; rfl)
  have hlength : 0 < b.rootComponents.length := List.length_pos_iff.2 b.guarded
  obtain ⟨t', root, base', rest', hchain, rfl, hplace, hrest⟩ := @inspectChain_ok anchor anchor []
    b.rootComponents.length (b.rootComponents ++ components) hnames 0 b.anchorPath anchor none t hanchor hdir hfree
    (List.append_nil _).symm (by simp) rfl (Or.inr ⟨hlength, by rw [List.length_append]; omega⟩)
  obtain ⟨-, -, hend⟩ := @inspectChain_spec true anchor b.rootComponents.length (b.rootComponents ++ components) hnames 0
    b.anchorPath anchor none t hanchor hdir
  rw [hchain] at hend
  obtain ⟨-, hresolve, -⟩ := hend _ _ rfl
  have hstat : t.stat b.anchorPath = .ok .dir := by
    rw [FileTree.Tree.stat, hanchor]
    exact FileTree.Tree.entryAt_eq_ok.2 hdir
  have hinside : isOutside (relativePath root (anchor ++ (b.rootComponents ++ components))) = false := by
    rw [hplace]
    exact isOutside_below hrest
  rw [ensureDirectory, inspectDirectoryChain, mapM_validate_ok hvalid]
  simp only [hstat, hanchor, hchain, hresolve, hinside, Bool.false_eq_true, if_false, List.append_assoc]

theorem verifyDirectory_spec {b : SafeStoreBoundary} {components : List JsString} {t : FileTree.Tree JsString} {path : Path}
    (h : b.verifyDirectory components t = .ok (some path)) : Confined b t t components path := by
  obtain ⟨-, hread, hend⟩ := inspectDirectoryChain_spec b false components t
  have hconfined := hend path h
  rw [hread rfl] at hconfined
  exact hconfined

end SafeStoreBoundary

/-! ## Files -/

theorem bytesRead_cases (short : ℕ → ℕ → ℕ) {size offset length : ℕ} (hlength : 0 < length) :
    offset + bytesRead short size offset length ≤ max offset size ∧
      (bytesRead short size offset length = 0 ↔ size ≤ offset) := by
  rw [bytesRead]
  omega

/-- What has been read is the start of the file, and fits. -/
def ReadSoFar (content : Bytes) (maximumBytes : ℕ) (chunks : Bytes) : Prop :=
  chunks = content.take chunks.length ∧ chunks.length ≤ content.length ∧ chunks.length ≤ maximumBytes

/-- What `readBounded` gives for a file. -/
def readResult (content : Bytes) (path : Path) (maximumBytes : ℕ) : Except StoreFailure Bytes :=
  if content.length ≤ maximumBytes then .ok content else .error (.tooLarge path maximumBytes)

theorem readRound_cases (short : ℕ → ℕ → ℕ) {content : Bytes} (path : Path) {maximumBytes : ℕ} {chunks : Bytes}
    (h : ReadSoFar content maximumBytes chunks) :
    (∃ chunks', readRound short content path maximumBytes chunks = some (.next chunks') ∧
        ReadSoFar content maximumBytes chunks' ∧ chunks.length < chunks'.length) ∨
      readRound short content path maximumBytes chunks = some (.done (readResult content path maximumBytes)) := by
  obtain ⟨htake, hle, hmax⟩ := h
  have hlength : 0 < min readChunkBytes (if readChunkBytes ≤ maximumBytes - chunks.length then readChunkBytes
      else maximumBytes - chunks.length + 1) := by
    unfold readChunkBytes
    split <;> omega
  obtain ⟨hroom, hzero⟩ := @bytesRead_cases short content.length chunks.length _ hlength
  simp only [readRound]
  generalize bytesRead short content.length chunks.length _ = n at hroom hzero ⊢
  by_cases hn : n = 0
  · right
    have hall : content.length ≤ chunks.length := hzero.1 hn
    have hsame : chunks = content := by rw [htake]; exact List.take_of_length_le hall
    rw [if_pos hn, readResult, if_pos (by omega), hsame]
  · rw [if_neg hn]
    have hsize : ¬ content.length ≤ chunks.length := fun h => hn (hzero.2 h)
    by_cases hlarge : maximumBytes < chunks.length + n
    · right
      rw [if_pos hlarge, readResult, if_neg (by omega)]
    · left
      have hlen : (chunks ++ (content.drop chunks.length).take n).length = chunks.length + n := by
        rw [List.length_append, List.length_take, List.length_drop]
        omega
      refine ⟨_, if_neg hlarge, ⟨?_, ?_, ?_⟩, ?_⟩
      · rw [hlen, List.take_add, ← htake]
      · omega
      · omega
      · omega

/-- **`readBounded` reads all of a file that fits**, however many bytes the system gives at a
time, and refuses any other. -/
theorem readBounded_eq (short : ℕ → ℕ → ℕ) (content : Bytes) (path : Path) (maximumBytes : ℕ) :
    readBounded short content path maximumBytes = some (readResult content path maximumBytes) := by
  have hstart : ReadSoFar content maximumBytes [] := ⟨by simp, Nat.zero_le _, Nat.zero_le _⟩
  obtain ⟨r, hr⟩ : ∃ r, readBounded short content path maximumBytes = some r := by
    refine Loop.run_total (I := ReadSoFar content maximumBytes) (μ := fun chunks => content.length + 1 - chunks.length)
      (fun chunks hI => ?_) hstart (by simp only [List.length_nil]; omega)
    rcases readRound_cases short path hI with ⟨chunks', hnext, hI', hlt⟩ | hdone
    · have hle := hI'.2.1
      exact Or.inr ⟨chunks', hnext, hI', by omega⟩
    · exact Or.inl ⟨_, hdone⟩
  rw [hr, Option.some.injEq]
  refine Loop.run_invariant (I := ReadSoFar content maximumBytes) (Q := fun r => r = readResult content path maximumBytes)
    (fun chunks chunks' hI h => ?_) (fun chunks r hI h => ?_) hstart hr
  · rcases readRound_cases short path hI with ⟨c, hnext, hI', -⟩ | hdone
    · rw [hnext] at h
      cases h
      exact hI'
    · rw [hdone] at h
      cases h
  · rcases readRound_cases short path hI with ⟨c, hnext, -⟩ | hdone
    · rw [hnext] at h
      cases h
    · rw [hdone] at h
      cases h
      rfl

/-- A file that was opened is where its name says. -/
structure Opened (b : SafeStoreBoundary) (t : FileTree.Tree JsString) (components : List JsString) (content : Bytes) : Prop where
  valid : components.all isValidComponent = true
  nonempty : components ≠ []
  real : ∃ anchor, t.resolve b.anchorPath = .ok anchor ∧
    t.resolve (b.anchorPath ++ b.rootComponents ++ components) = .ok (anchor ++ b.rootComponents ++ components) ∧
    t.entry (anchor ++ b.rootComponents ++ components) = some (.file content)

section
variable {b : SafeStoreBoundary} {t : FileTree.Tree JsString} {components : List JsString} {content : Bytes}

/-- In a directory that was verified, `lstat` sees what is at the place of the name. -/
theorem lstat_verified {anchor : Path} (hne : components ≠ [])
    (hresolve : t.resolve (b.anchorPath ++ b.rootComponents ++ components.dropLast) =
      .ok (anchor ++ b.rootComponents ++ components.dropLast))
    (hdir : t.entry (anchor ++ b.rootComponents ++ components.dropLast) = some .dir) :
    t.lstat (b.anchorPath ++ b.rootComponents ++ components) =
      t.entryAt (anchor ++ b.rootComponents ++ components) := by
  have hlast : components = components.dropLast ++ [components.getLast hne] := (List.dropLast_concat_getLast hne).symm
  have hlstat := FileTree.Tree.lstat_below hresolve hdir (a := components.getLast hne)
  rw [List.append_assoc _ components.dropLast, List.append_assoc _ components.dropLast, ← hlast] at hlstat
  exact hlstat

theorem resolve_verified {anchor : Path} (hne : components ≠ [])
    (hresolve : t.resolve (b.anchorPath ++ b.rootComponents ++ components.dropLast) =
      .ok (anchor ++ b.rootComponents ++ components.dropLast))
    (hdir : t.entry (anchor ++ b.rootComponents ++ components.dropLast) = some .dir)
    (hfile : t.entry (anchor ++ b.rootComponents ++ components) = some (.file content)) :
    t.resolve (b.anchorPath ++ b.rootComponents ++ components) = .ok (anchor ++ b.rootComponents ++ components) := by
  have hlast : components = components.dropLast ++ [components.getLast hne] := (List.dropLast_concat_getLast hne).symm
  rw [hlast, ← List.append_assoc] at hfile
  have hbelow := FileTree.Tree.resolve_below hresolve hdir hfile (by simp)
  rw [List.append_assoc _ components.dropLast, List.append_assoc _ components.dropLast, ← hlast] at hbelow
  exact hbelow

/-- **Reading**: what is read is the whole file at the place of its name. -/
theorem readRegularFile_opened (short : ℕ → ℕ → ℕ) {maximumBytes : ℤ} {r : Except StoreFailure (Option Bytes)}
    (hread : b.readRegularFile short t components maximumBytes = some r) (hr : r = .ok (some content)) :
    Opened b t components content ∧ content.length ≤ maximumBytes.toNat := by
  subst hr
  rw [SafeStoreBoundary.readRegularFile] at hread
  split at hread
  · cases hread
  split at hread
  · cases hread
  next requested hmap =>
  obtain ⟨rfl, hvalid⟩ := mapM_validate hmap
  split at hread
  · cases hread
  next hlen =>
  have hne : requested ≠ [] := by
    rintro rfl
    exact hlen rfl
  split at hread
  · cases hread
  · cases hread
  next parent hverify =>
  obtain ⟨anchor, hanchor, -, hresolve, hdir⟩ := (SafeStoreBoundary.verifyDirectory_spec hverify).real
  rw [(SafeStoreBoundary.verifyDirectory_spec hverify).named] at hresolve
  rw [SafeStoreBoundary.pathFor_ok hvalid] at hread
  dsimp only at hread
  rw [lstat_verified hne hresolve hdir] at hread
  cases hentry : t.entry (anchor ++ b.rootComponents ++ requested) with
  | none =>
    rw [FileTree.Tree.entryAt, hentry] at hread
    cases hread
  | some e =>
    rw [FileTree.Tree.entryAt_eq_ok.2 hentry] at hread
    cases e with
    | file found =>
      dsimp only at hread
      split at hread
      · cases hread
      next hsize =>
      rw [readBounded_eq, readResult, if_pos (by omega)] at hread
      cases hread
      exact ⟨⟨hvalid, hne, anchor, hanchor, resolve_verified hne hresolve hdir hentry, hentry⟩, by omega⟩
    | dir => cases hread
    | link absolute target => cases hread
    | other => cases hread

/-- **A regular file in a directory that is verified** is read whole if it fits, and refused
otherwise. -/
theorem readRegularFile_eq (short : ℕ → ℕ → ℕ) {maximumBytes : ℤ} (hmin : 0 ≤ maximumBytes)
    (hmax : maximumBytes ≤ maxSafeInteger) (hvalid : components.all isValidComponent = true) (hne : components ≠ [])
    {parent : Path} (hverify : b.verifyDirectory components.dropLast t = .ok (some parent)) {anchor : Path}
    (hanchor : t.resolve b.anchorPath = .ok anchor)
    (hfile : t.entry (anchor ++ b.rootComponents ++ components) = some (.file content)) :
    b.readRegularFile short t components maximumBytes =
      some ((readResult content (b.anchorPath ++ b.rootComponents ++ components) maximumBytes.toNat).map some) := by
  have hconfined := SafeStoreBoundary.verifyDirectory_spec hverify
  obtain ⟨anchor', hanchor', -, hresolve, hdir⟩ := hconfined.real
  rw [hconfined.named] at hresolve
  obtain rfl : anchor' = anchor := Except.ok.inj (hanchor'.symm.trans hanchor)
  rw [SafeStoreBoundary.readRegularFile, if_neg (by omega), mapM_validate_ok hvalid]
  dsimp only
  rw [if_neg (by rw [List.length_eq_zero_iff]; exact hne), hverify, SafeStoreBoundary.pathFor_ok hvalid]
  dsimp only
  rw [lstat_verified hne hresolve hdir, FileTree.Tree.entryAt_eq_ok.2 hfile]
  dsimp only
  split
  · next hlarge =>
    rw [readResult, if_neg (by omega)]
    rfl
  · rw [readBounded_eq]
    rfl

theorem readRegularFile_total (short : ℕ → ℕ → ℕ) (b : SafeStoreBoundary) (t : FileTree.Tree JsString)
    (components : List JsString) (maximumBytes : ℤ) :
    (b.readRegularFile short t components maximumBytes).isSome := by
  unfold SafeStoreBoundary.readRegularFile
  repeat' split
  all_goals first | rfl | (rw [readBounded_eq]; rfl)

end

/-! ## Finding the store -/

/-- The loop stops at the last component of the name. -/
theorem findUp_append {below above : List JsString} (h : js ".barbaro" ∉ below) :
    findUp (below ++ js ".barbaro" :: above) = some (js ".barbaro" :: above) := by
  induction below with
  | nil => rw [List.nil_append, findUp, if_pos rfl]
  | cons c below ih =>
    rw [List.mem_cons, not_or] at h
    rw [List.cons_append, findUp, if_neg (Ne.symm h.1), ih h.2]

/-- A path with a component of the name, cut at the last of them. -/
theorem cut_last {target : Path} (h : js ".barbaro" ∈ target) :
    ∃ above below, target = above ++ js ".barbaro" :: below ∧ js ".barbaro" ∉ below := by
  obtain ⟨below, above, hsplit, hnot⟩ := List.eq_append_cons_of_mem (List.mem_reverse.2 h)
  refine ⟨above.reverse, below.reverse, ?_, by simpa using hnot⟩
  have hrev := congrArg List.reverse hsplit
  rw [List.reverse_reverse, List.reverse_append, List.reverse_cons] at hrev
  rw [hrev, List.append_assoc, List.singleton_append]

theorem componentsForPath_below {b : SafeStoreBoundary} {below : List JsString}
    (hvalid : below.all isValidComponent = true) : b.componentsForPath (b.rootPath ++ below) = .ok below := by
  have hnames := names_of_valid hvalid
  have hinside := @isOutside_below b.rootPath below hnames
  rw [relativePath_below] at hinside
  rw [SafeStoreBoundary.componentsForPath]
  simp only [relativePath_below, hinside, Bool.false_eq_true, if_false]
  cases below with
  | nil => rfl
  | cons c below =>
    have hslash : ∀ l ∈ c :: below, (47 : UInt16) ∉ l := fun l hl => (hnames l hl).2.2.2
    have hne : ([47] : JsString).intercalate (c :: below) ≠ [] := by
      obtain ⟨tail, htext, -⟩ := head_intercalate c below
      rw [htext]
      exact fun h => (hnames c (by simp)).1 (List.append_eq_nil_iff.1 h).1
    rw [if_neg (by rw [List.length_eq_zero_iff]; exact hne), List.splitOn_intercalate 47 hslash (by simp),
      mapM_validate_ok hvalid]

/-- **The store that is found** is the last directory of the name on the path, and the
components lead back to the path. -/
theorem findBarbaroStoreLocation_eq {above below : List JsString} (h : js ".barbaro" ∉ below)
    (hvalid : below.all isValidComponent = true) :
    findBarbaroStoreLocation (above ++ js ".barbaro" :: below) = .ok (some (forBarbaroProject above, below)) ∧
      (forBarbaroProject above).pathFor below = .ok (above ++ js ".barbaro" :: below) := by
  have hroot : (forBarbaroProject above).rootPath = above ++ [js ".barbaro"] := SafeStoreBoundary.rootPath_eq _
  have hassoc : above ++ js ".barbaro" :: below = above ++ [js ".barbaro"] ++ below := by
    rw [List.append_assoc, List.singleton_append]
  constructor
  · have hrev : (above ++ js ".barbaro" :: below).reverse = below.reverse ++ js ".barbaro" :: above.reverse := by simp
    rw [findBarbaroStoreLocation, hrev, findUp_append (by simpa using h)]
    simp only [List.reverse_cons, List.reverse_reverse, List.dropLast_concat]
    have hcomponents := @componentsForPath_below (forBarbaroProject above) below hvalid
    rw [hroot, ← hassoc] at hcomponents
    rw [hcomponents]
    rfl
  · rw [SafeStoreBoundary.pathFor_ok hvalid, hassoc]
    rfl

/-- A regular file is at its place, in directories that are verified. -/
structure FileThere (b : SafeStoreBoundary) (t : FileTree.Tree JsString) (components : List JsString) (content : Bytes) :
    Prop where
  valid : components.all isValidComponent = true
  nonempty : components ≠ []
  verified : ∃ parent, b.verifyDirectory components.dropLast t = .ok (some parent)
  file : ∃ anchor, t.resolve b.anchorPath = .ok anchor ∧
    t.entry (anchor ++ b.rootComponents ++ components) = some (.file content)

/-- **The boundary confines every path**: what a call made, verified or opened is where the
real path of the anchor and the names lead; directories are only made along that chain; a
file is read whole if it fits; and the nearest store of a path, where the path itself
counts, leads back to it. -/
theorem store_confined (b : SafeStoreBoundary) (t : FileTree.Tree JsString) (components : List JsString)
    (short : ℕ → ℕ → ℕ) (maximumBytes : ℤ) :
    (∀ path, (b.ensureDirectory components t).2 = .ok path →
        SafeStoreBoundary.Confined b t (b.ensureDirectory components t).1 components path) ∧
      SafeStoreBoundary.Along b t (b.ensureDirectory components t).1 components ∧
      (∀ path, b.verifyDirectory components t = .ok (some path) →
        SafeStoreBoundary.Confined b t t components path) ∧
      (∃ r, b.readRegularFile short t components maximumBytes = some r ∧
        (∀ content, r = .ok (some content) → Opened b t components content) ∧
        ∀ content, FileThere b t components content → 0 ≤ maximumBytes → maximumBytes ≤ maxSafeInteger →
          (r = .ok (some content) ↔ content.length ≤ maximumBytes)) ∧
      ∀ above below, below ≠ [] → below.all isValidComponent = true →
        ∃ above' below', above ++ js ".barbaro" :: below = above' ++ js ".barbaro" :: below' ∧ js ".barbaro" ∉ below' ∧
          findBarbaroStoreLocation (above ++ js ".barbaro" :: below) =
            .ok (some (forBarbaroProject above', below')) ∧
          (forBarbaroProject above').pathFor below' = .ok (above ++ js ".barbaro" :: below) := by
  obtain ⟨halong, hensured⟩ := SafeStoreBoundary.ensureDirectory_spec b components t
  refine ⟨hensured, halong, fun path h => SafeStoreBoundary.verifyDirectory_spec h, ?_, fun above below _ hvalid => ?_⟩
  · obtain ⟨r, hr⟩ := Option.isSome_iff_exists.1 (readRegularFile_total short b t components maximumBytes)
    refine ⟨r, hr, fun content h => (readRegularFile_opened short hr h).1, fun content hthere hmin hmax => ?_⟩
    obtain ⟨parent, hverified⟩ := hthere.verified
    obtain ⟨anchor, hanchor, hfile⟩ := hthere.file
    have heq := readRegularFile_eq short hmin hmax hthere.valid hthere.nonempty hverified hanchor hfile
    rw [hr, Option.some.injEq] at heq
    rw [heq, readResult]
    split
    · next hfits => exact ⟨fun _ => by omega, fun _ => rfl⟩
    · next hfits => exact ⟨(fun h => nomatch h), fun h => absurd (by omega) hfits⟩
  · by_cases hmem : js ".barbaro" ∈ below
    · obtain ⟨middle, last, rfl, hnot⟩ := cut_last hmem
      rw [List.all_append, List.all_cons, Bool.and_eq_true, Bool.and_eq_true] at hvalid
      have hassoc : above ++ js ".barbaro" :: (middle ++ js ".barbaro" :: last) =
          (above ++ js ".barbaro" :: middle) ++ js ".barbaro" :: last := by simp
      rw [hassoc]
      exact ⟨_, last, rfl, hnot, findBarbaroStoreLocation_eq hnot hvalid.2.2⟩
    · exact ⟨above, below, rfl, hmem, findBarbaroStoreLocation_eq hmem hvalid⟩

/-! ## A project behind a link -/

/-- `/p`, and a link `/l` to it. -/
def linkedTree : FileTree.Tree JsString where
  entry place :=
    if place = [] then some .dir else if place = [js "p"] then some .dir
    else if place = [js "l"] then some (.link false [.name (js "p")]) else none
  root := rfl
  parent := by
    intro place a h
    cases place with
    | nil => rfl
    | cons c place =>
      rw [if_neg (by simp), if_neg (by simp), if_neg (by simp)] at h
      cases h

theorem linkedTree_confined : SafeStoreBoundary.Confined (forBarbaroProject [js "l"]) linkedTree
    ((forBarbaroProject [js "l"]).ensureDirectory [js "feed"] linkedTree).1 [js "feed"]
    [js "l", js ".barbaro", js "feed"] := by
  have hfree : ∀ k, linkedTree.entry ([js "p"] ++ ([js ".barbaro", js "feed"].take k)) = none ∨
      linkedTree.entry ([js "p"] ++ ([js ".barbaro", js "feed"].take k)) = some .dir := by
    intro k
    cases k with
    | zero => exact Or.inr rfl
    | succ k => exact Or.inl rfl
  have hensured := @SafeStoreBoundary.ensureDirectory_ok (forBarbaroProject [js "l"]) [js "feed"] linkedTree [js "p"]
    (by decide) rfl rfl hfree
  exact (store_confined (forBarbaroProject [js "l"]) linkedTree [js "feed"] (fun _ _ => 0) 0).1 _ hensured

/-- A path that has the name itself is taken for the store, and not for something below the
one above it. -/
theorem nearest_is_itself :
    findBarbaroStoreLocation [js "p", js ".barbaro", js ".barbaro"] =
        .ok (some (forBarbaroProject [js "p", js ".barbaro"], [])) ∧
      ∀ above below, below ≠ [] → findBarbaroStoreLocation [js "p", js ".barbaro", js ".barbaro"] ≠
        .ok (some (forBarbaroProject above, below)) := by
  have hfound : findBarbaroStoreLocation [js "p", js ".barbaro", js ".barbaro"] =
      .ok (some (forBarbaroProject [js "p", js ".barbaro"], [])) := rfl
  refine ⟨hfound, fun above below hne h => hne ?_⟩
  rw [hfound] at h
  exact (Prod.ext_iff.1 (Option.some.inj (Except.ok.inj h))).2.symm

end Barbaro.SafeStore
