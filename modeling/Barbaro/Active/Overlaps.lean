import Barbaro.Active.Conflicts

/-!
# Overlaps are exact

* `mem_leaseClaims`: what a lease claims does not depend on the order of its claims.
* `projectWriteClaims_congr`: what the leases claim does not depend on their order.
* `overlaps_exact`: each pair of claims that meets is told once, and no other.
-/

namespace Barbaro.Active

/-! ## The paths of a lease -/

section
variable {paths : List (JsString × ClaimConfidence)} {path : JsString} {confidence : ClaimConfidence}

theorem mem_of_getPath (h : getPath path paths = some confidence) : (path, confidence) ∈ paths := by
  induction paths with
  | nil => cases h
  | cons f paths ih =>
    rw [getPath] at h
    split at h
    · next heq =>
      cases h
      rw [← heq]
      exact List.mem_cons_self
    · exact List.mem_cons_of_mem _ (ih h)

theorem getPath_eq_iff (hnodup : (paths.map (·.1)).Nodup) :
    getPath path paths = some confidence ↔ (path, confidence) ∈ paths := by
  refine ⟨mem_of_getPath, fun h => ?_⟩
  induction paths with
  | nil => cases h
  | cons f paths ih =>
    rw [List.map_cons, List.nodup_cons] at hnodup
    rw [getPath]
    rcases List.mem_cons.1 h with rfl | h
    · rw [if_pos rfl]
    · rw [if_neg, ih hnodup.2 h]
      rintro rfl
      exact hnodup.1 (List.mem_map.2 ⟨_, h, rfl⟩)

theorem setPath_keys (path : JsString) (confidence : ClaimConfidence) (paths : List (JsString × ClaimConfidence)) :
    (setPath path confidence paths).map (·.1) =
      if path ∈ paths.map (·.1) then paths.map (·.1) else paths.map (·.1) ++ [path] := by
  induction paths with
  | nil => rfl
  | cons f paths ih =>
    by_cases hf : f.1 = path
    · simp [setPath, hf]
    · have hne : ¬ path = f.1 := fun h => hf h.symm
      rw [setPath, if_neg hf, List.map_cons, ih, List.map_cons]
      by_cases hmem : path ∈ paths.map (·.1)
      · rw [if_pos hmem, if_pos (List.mem_cons_of_mem _ hmem)]
      · rw [if_neg hmem, if_neg (by simp only [List.mem_cons, hne, hmem, or_self, not_false_eq_true])]
        rfl

theorem setPath_nodup (h : (paths.map (·.1)).Nodup) (path : JsString) (confidence : ClaimConfidence) :
    ((setPath path confidence paths).map (·.1)).Nodup := by
  rw [setPath_keys]
  split
  · exact h
  · next hnew => exact h.append (by simp) (by simpa using hnew)

/-- Setting a path replaces what is there of it. -/
theorem mem_setPath (h : (paths.map (·.1)).Nodup) {f : JsString × ClaimConfidence} :
    f ∈ setPath path confidence paths ↔ f = (path, confidence) ∨ (f.1 ≠ path ∧ f ∈ paths) := by
  induction paths with
  | nil => simp [setPath]
  | cons g paths ih =>
    rw [List.map_cons, List.nodup_cons] at h
    by_cases hg : g.1 = path
    · have hrest : ∀ f ∈ paths, f.1 ≠ path := by
        intro f hf heq
        rw [hg, ← heq] at h
        exact h.1 (List.mem_map_of_mem hf)
      rw [setPath, if_pos hg, List.mem_cons, List.mem_cons]
      constructor
      · rintro (rfl | hf)
        · exact .inl rfl
        · exact .inr ⟨hrest f hf, .inr hf⟩
      · rintro (rfl | ⟨hne, rfl | hf⟩)
        · exact .inl rfl
        · exact absurd hg hne
        · exact .inr hf
    · rw [setPath, if_neg hg, List.mem_cons, List.mem_cons, ih h.2]
      constructor
      · rintro (rfl | rfl | ⟨hne, hf⟩)
        · exact .inr ⟨hg, .inl rfl⟩
        · exact .inl rfl
        · exact .inr ⟨hne, .inr hf⟩
      · rintro (rfl | ⟨hne, rfl | hf⟩)
        · exact .inr (.inl rfl)
        · exact .inl rfl
        · exact .inr (.inr ⟨hne, hf⟩)

end

section
variable {root : List JsString}

/-- What is noted once these claims were seen. -/
structure Noted (root : List JsString) (scope : Bool) (claims : List ActiveWriteClaim)
    (noted : List (JsString × ClaimConfidence) × Bool) : Prop where
  nodup : (noted.1.map (·.1)).Nodup
  known : ∀ p, (∃ c, (p, c) ∈ noted.1) ↔ ∃ a ∈ claims, normalizeRepoPath root a.path = some p
  inferred : ∀ p, (p, .inferred) ∈ noted.1 ↔
    ∃ a ∈ claims, normalizeRepoPath root a.path = some p ∧ claimConfidence a = .inferred
  certain : ∀ f ∈ noted.1, f.2 ≠ .unknown
  unknown : noted.2 = true ↔ scope = true ∨ ∃ a ∈ claims, normalizeRepoPath root a.path = none

theorem claimConfidence_cases (a : ActiveWriteClaim) : claimConfidence a = .inferred ∨ claimConfidence a = .exact := by
  unfold claimConfidence
  split
  · exact .inl rfl
  · exact .inr rfl

/-- One more claim. -/
theorem Noted.step {scope : Bool} {claims : List ActiveWriteClaim}
    {noted : List (JsString × ClaimConfidence) × Bool} (h : Noted root scope claims noted) (a : ActiveWriteClaim) :
    Noted root scope (claims ++ [a]) (noteClaim root noted a) := by
  unfold noteClaim
  rcases hpath : normalizeRepoPath root a.path with _ | path
  · refine ⟨h.nodup, fun p => ?_, fun p => ?_, h.certain, ?_⟩
    · rw [h.known]
      simp [or_and_right, exists_or, hpath]
    · rw [h.inferred]
      simp [or_and_right, exists_or, hpath]
    · simp only [true_iff]
      exact .inr ⟨a, by simp, hpath⟩
  · set weaker : ClaimConfidence :=
      if getPath path noted.1 = some .inferred then .inferred else claimConfidence a with hweaker
    have hmem := @mem_setPath noted.1 path weaker h.nodup
    refine ⟨setPath_nodup h.nodup path weaker, fun p => ?_, fun p => ?_, fun f hf => ?_, ?_⟩
    · have hstep : (∃ c, (p, c) ∈ setPath path weaker noted.1) ↔ (∃ c, (p, c) ∈ noted.1) ∨ path = p := by
        constructor
        · rintro ⟨c, hc⟩
          rcases hmem.1 hc with heq | ⟨-, hc⟩
          · exact .inr (Prod.ext_iff.1 heq).1.symm
          · exact .inl ⟨c, hc⟩
        · rintro (⟨c, hc⟩ | rfl)
          · by_cases hp : p = path
            · exact ⟨weaker, hmem.2 (.inl (by rw [hp]))⟩
            · exact ⟨c, hmem.2 (.inr ⟨hp, hc⟩)⟩
          · exact ⟨weaker, hmem.2 (.inl rfl)⟩
      rw [hstep, h.known]
      simp [or_and_right, exists_or, hpath]
    · have hold : getPath path noted.1 = some .inferred ↔ (path, .inferred) ∈ noted.1 := getPath_eq_iff h.nodup
      have hweak : weaker = .inferred ↔ (path, .inferred) ∈ noted.1 ∨ claimConfidence a = .inferred := by
        rw [hweaker, ← hold]
        split
        · next hget => simp [hget]
        · next hget => simp [hget]
      have hstep : (p, .inferred) ∈ setPath path weaker noted.1 ↔
          (p, .inferred) ∈ noted.1 ∨ (path = p ∧ claimConfidence a = .inferred) := by
        rw [hmem]
        by_cases hp : p = path
        · subst hp
          simp only [Prod.mk.injEq, true_and, ne_eq, not_true_eq_false, false_and, or_false]
          rw [eq_comm, hweak]
        · simp [hp, Ne.symm hp]
      rw [hstep, h.inferred]
      simp [or_and_right, exists_or, hpath]
    · rcases hmem.1 hf with rfl | ⟨-, hf⟩
      · rw [hweaker]
        split
        · simp
        · rcases claimConfidence_cases a with hc | hc
          · simp [hc]
          · simp [hc]
      · exact h.certain f hf
    · rw [h.unknown]
      simp [or_and_right, exists_or, hpath]

theorem noted_all (scope : Bool) (claims : List ActiveWriteClaim) :
    Noted root scope claims (claims.foldl (noteClaim root) ([], scope)) := by
  have hrun : ∀ (rest done : List ActiveWriteClaim) (noted : List (JsString × ClaimConfidence) × Bool),
      Noted root scope done noted → Noted root scope (done ++ rest) (rest.foldl (noteClaim root) noted) := by
    intro rest
    induction rest with
    | nil =>
      intro done noted h
      rwa [List.append_nil]
    | cons a rest ih =>
      intro done noted h
      have hstep := ih (done ++ [a]) _ (h.step a)
      rwa [List.append_assoc, List.singleton_append] at hstep
  exact hrun claims [] ([], scope) ⟨List.nodup_nil, by simp, by simp, by simp, by simp⟩

/-! ## The claims of a lease -/

/-- The claim says what the lease says of a path: it is inferred if some claim on the path is.
It has no path if no path is known and the scope is unknown. -/
structure IsClaimOf (root : List JsString) (lease : LeaseSnapshot) (c : ProjectWriteClaim) : Prop where
  leaseId : c.leaseId = lease.leaseId
  provider : c.provider = lease.provider
  sessionId : c.sessionId = lease.sessionId
  agentId : c.agentId = lease.agentId
  workstreamId : c.workstreamId = lease.workstreamId
  expiresAt : c.expiresAt = lease.expiresAt
  scope : c.unknownWriteScope = true ↔
    lease.unknownWriteScope = true ∨ ∃ a ∈ lease.claims, normalizeRepoPath root a.path = none
  known : ∀ p, c.path = some p → (∃ a ∈ lease.claims, normalizeRepoPath root a.path = some p) ∧
    c.confidence ≠ .unknown ∧ (c.confidence = .inferred ↔
      ∃ a ∈ lease.claims, normalizeRepoPath root a.path = some p ∧ claimConfidence a = .inferred)
  unknown : c.path = none → c.confidence = .unknown ∧ c.unknownWriteScope = true ∧
    ∀ a ∈ lease.claims, normalizeRepoPath root a.path = none

/-- A claim is known by its lease and its path. -/
theorem IsClaimOf.unique {lease : LeaseSnapshot} {c d : ProjectWriteClaim} (hc : IsClaimOf root lease c)
    (hd : IsClaimOf root lease d) (hpath : c.path = d.path) : c = d := by
  have hscope : c.unknownWriteScope = d.unknownWriteScope := Bool.eq_iff_iff.2 (hc.scope.trans hd.scope.symm)
  have hconfidence : c.confidence = d.confidence := by
    rcases hp : c.path with _ | p
    · rw [(hc.unknown hp).1, (hd.unknown (hpath ▸ hp)).1]
    · obtain ⟨-, hcu, hci⟩ := hc.known p hp
      obtain ⟨-, hdu, hdi⟩ := hd.known p (hpath ▸ hp)
      have hinferred := hci.trans hdi.symm
      rcases hcc : c.confidence with _ | _ | _
      · rcases hdc : d.confidence with _ | _ | _
        · rfl
        · rw [hcc, hdc] at hinferred
          exact absurd (hinferred.2 rfl) (by simp)
        · exact absurd hdc hdu
      · exact (hinferred.1 hcc).symm
      · exact absurd hcc hcu
  obtain ⟨_, _, _, _, _, _, _, _, _⟩ := c
  obtain ⟨_, _, _, _, _, _, _, _, _⟩ := d
  have h₁ := hc.leaseId.trans hd.leaseId.symm
  have h₂ := hc.provider.trans hd.provider.symm
  have h₃ := hc.sessionId.trans hd.sessionId.symm
  have h₄ := hc.agentId.trans hd.agentId.symm
  have h₅ := hc.workstreamId.trans hd.workstreamId.symm
  have h₆ := hc.expiresAt.trans hd.expiresAt.symm
  simp only at h₁ h₂ h₃ h₄ h₅ h₆ hscope hconfidence hpath
  subst h₁ h₂ h₃ h₄ h₅ h₆ hscope hconfidence hpath
  rfl

/-- **What a lease claims**, in whatever order its claims stand. -/
theorem mem_leaseClaims {lease : LeaseSnapshot} {c : ProjectWriteClaim} :
    c ∈ leaseClaims root lease ↔ IsClaimOf root lease c := by
  have hnoted := @noted_all root lease.unknownWriteScope lease.claims
  rw [leaseClaims]
  set noted := lease.claims.foldl (noteClaim root) ([], lease.unknownWriteScope)
  have hempty : noted.1 = [] ↔ ∀ a ∈ lease.claims, normalizeRepoPath root a.path = none := by
    constructor
    · intro hnil a ha
      by_contra hsome
      obtain ⟨p, hp⟩ := Option.ne_none_iff_exists'.1 hsome
      obtain ⟨c, hc⟩ := (hnoted.known p).2 ⟨a, ha, hp⟩
      rw [hnil] at hc
      cases hc
    · intro hnone
      refine List.eq_nil_iff_forall_not_mem.2 fun f hf => ?_
      obtain ⟨a, ha, hp⟩ := (hnoted.known f.1).1 ⟨f.2, hf⟩
      rw [hnone a ha] at hp
      cases hp
  have hflag : noted.2 = true ↔ _ := hnoted.unknown
  dsimp only
  rw [List.mem_append, List.mem_map]
  constructor
  · rintro (⟨f, hf, rfl⟩ | howner)
    · refine ⟨rfl, rfl, rfl, rfl, rfl, rfl, hflag, ?_, by simp⟩
      rintro p ⟨⟩
      refine ⟨(hnoted.known f.1).1 ⟨f.2, hf⟩, hnoted.certain f hf, ?_⟩
      rw [← hnoted.inferred]
      constructor
      · intro hinferred
        have hpair : f = (f.1, .inferred) := Prod.ext rfl hinferred
        rwa [hpair] at hf
      · intro hmem
        have hget := (getPath_eq_iff hnoted.nodup).2 hmem
        rw [(getPath_eq_iff hnoted.nodup).2 (show (f.1, f.2) ∈ noted.1 from hf)] at hget
        exact Option.some.inj hget
    · split at howner
      · next hcond =>
        rw [Bool.and_eq_true, List.isEmpty_iff] at hcond
        rw [List.mem_singleton] at howner
        rw [howner]
        exact ⟨rfl, rfl, rfl, rfl, rfl, rfl, hflag, by simp, fun _ => ⟨rfl, hcond.1, hempty.1 hcond.2⟩⟩
      · cases howner
  · intro h
    have hscope : c.unknownWriteScope = noted.2 := Bool.eq_iff_iff.2 (h.scope.trans hflag.symm)
    rcases hpath : c.path with _ | p
    · obtain ⟨hconfidence, hunknown, hnone⟩ := h.unknown hpath
      refine .inr ?_
      rw [if_pos (by rw [← hscope, hunknown, hempty.2 hnone]; rfl), List.mem_singleton]
      obtain ⟨_, _, _, _, _, _, _, _, _⟩ := c
      obtain ⟨rfl, rfl, rfl, rfl, rfl, rfl, -, -, -⟩ := h
      simp only at hconfidence hpath hscope
      rw [hconfidence, hpath, hscope]
    · obtain ⟨hsome, hcertain, hinferred⟩ := h.known p hpath
      obtain ⟨confidence, hmem⟩ := (hnoted.known p).2 hsome
      have hsame : confidence = c.confidence := by
        have hiff : confidence = .inferred ↔ c.confidence = .inferred := by
          rw [hinferred, ← hnoted.inferred]
          constructor
          · rintro rfl
            exact hmem
          · intro hmem'
            have hget := (getPath_eq_iff hnoted.nodup).2 hmem'
            rw [(getPath_eq_iff hnoted.nodup).2 hmem] at hget
            exact Option.some.inj hget
        have hknown := hnoted.certain _ hmem
        rcases hc : c.confidence with _ | _ | _
        · rcases confidence with _ | _ | _
          · rfl
          · rw [hc] at hiff
            exact absurd (hiff.1 rfl) (by simp)
          · exact absurd rfl hknown
        · exact hiff.2 hc
        · exact absurd hc hcertain
      refine .inl ⟨(p, confidence), hmem, ?_⟩
      obtain ⟨_, _, _, _, _, _, _, _, _⟩ := c
      obtain ⟨rfl, rfl, rfl, rfl, rfl, rfl, -, -, -⟩ := h
      simp only at hsame hpath hscope
      rw [hsame, hpath, hscope]

end

/-! ## The claims of all leases -/

/-- What tells a claim from the others. -/
def claimFields (c : ProjectWriteClaim) : Option JsString × JsString × JsString × JsString × Option JsString :=
  (c.workstreamId, c.provider, c.sessionId, c.agentId, c.path)

theorem textOrNull_injective {s t : Option JsString} (h : textOrNull s = textOrNull t) : s = t := by
  cases s with
  | none => cases t with
    | none => rfl
    | some t => cases h
  | some s => cases t with
    | none => cases h
    | some t => cases h; rfl

theorem claimIdentity_injective {c d : ProjectWriteClaim} (h : claimIdentity c = claimIdentity d) :
    claimFields c = claimFields d := by
  have hwell : ∀ c : ProjectWriteClaim, (Json.arr [textOrNull c.workstreamId, .str c.provider, .str c.sessionId,
      .str c.agentId, textOrNull c.path]).WellFormed Json.Number.other := by
    intro c
    have hnull : ∀ s : Option JsString, (textOrNull s).WellFormed Json.Number.other := by
      intro s
      cases s with
      | none => trivial
      | some s => trivial
    exact ⟨hnull _, trivial, trivial, trivial, hnull _, trivial⟩
  have hsame := (stableStringify_eq_iff (hwell c) (hwell d)).1 h
  rw [same_iff (hwell c) (hwell d)] at hsame
  have hplain : ∀ s : Option JsString, sortKeys (textOrNull s) = textOrNull s := by
    intro s
    cases s with
    | none => rfl
    | some s => rfl
  simp only [sortKeys, sortKeysItems, hplain, Json.arr.injEq, List.cons.injEq, Json.str.injEq, and_true] at hsame
  obtain ⟨hworkstream, hprovider, hsession, hagent, hpath⟩ := hsame
  simp only [claimFields, Prod.mk.injEq]
  exact ⟨textOrNull_injective hworkstream, hprovider, hsession, hagent, textOrNull_injective hpath⟩

section
variable {E : Host} {root : List JsString} {now : ℤ}

theorem mem_projectWriteClaims {leases : List LeaseSnapshot} {c : ProjectWriteClaim} :
    c ∈ projectWriteClaims E root leases now ↔
      ∃ lease ∈ leases, isCurrent E now lease = true ∧ IsClaimOf root lease c := by
  rw [projectWriteClaims, List.mem_mergeSort, List.mem_flatMap]
  simp only [List.mem_filter, mem_leaseClaims, and_assoc]

theorem leaseClaims_nodup (lease : LeaseSnapshot) : (leaseClaims root lease).Pairwise (fun c d => c.path ≠ d.path) := by
  have hnoted := @noted_all root lease.unknownWriteScope lease.claims
  rw [leaseClaims]
  set noted := lease.claims.foldl (noteClaim root) ([], lease.unknownWriteScope)
  dsimp only
  rw [List.pairwise_append]
  refine ⟨?_, ?_, fun c hc d hd => ?_⟩
  · rw [List.pairwise_map]
    refine (List.pairwise_map.1 hnoted.nodup).imp fun hne heq => ?_
    exact hne (Option.some.inj heq)
  · split
    · exact List.pairwise_singleton _ _
    · exact .nil
  · split at hd
    · next hcond =>
      rw [Bool.and_eq_true, List.isEmpty_iff] at hcond
      rw [hcond.2] at hc
      cases hc
    · cases hd

/-- No two claims of leases of different actors have one identity. -/
theorem identities_nodup {leases : List LeaseSnapshot} (hactors : (leases.map LeaseSnapshot.actor).Nodup) :
    (((leases.filter (isCurrent E now)).flatMap (leaseClaims root)).map claimIdentity).Nodup := by
  have hkeys : ((leases.filter (isCurrent E now)).flatMap (leaseClaims root)).Pairwise
      (fun c d => claimFields c ≠ claimFields d) := by
    rw [List.pairwise_flatMap]
    constructor
    · intro lease _
      refine (leaseClaims_nodup lease).imp fun hne heq => hne ?_
      simp only [claimFields, Prod.mk.injEq] at heq
      exact heq.2.2.2.2
    · have hfilter : (leases.filter (isCurrent E now)).Pairwise (fun l m => l.actor ≠ m.actor) :=
        (List.pairwise_map.1 hactors).filter _
      refine hfilter.imp fun {l m} hne c hc d hd heq => hne ?_
      have hc := mem_leaseClaims.1 hc
      have hd := mem_leaseClaims.1 hd
      simp only [claimFields, Prod.mk.injEq] at heq
      obtain ⟨-, hprovider, hsession, hagent, -⟩ := heq
      rw [LeaseSnapshot.actor, LeaseSnapshot.actor, ← hc.provider, ← hc.sessionId, ← hc.agentId, ← hd.provider,
        ← hd.sessionId, ← hd.agentId, hprovider, hsession, hagent]
  exact List.pairwise_map.2 (hkeys.imp fun hne heq => hne (claimIdentity_injective heq))

/-- The claims stand in the strict order of their identities. -/
theorem projectWriteClaims_ordered {leases : List LeaseSnapshot}
    (hactors : (leases.map LeaseSnapshot.actor).Nodup) : (projectWriteClaims E root leases now).Pairwise
      (fun c d => compareUtf16CodeUnits (claimIdentity c) (claimIdentity d) = .lt) :=
  sortedBy_strict claimIdentity (identities_nodup hactors)

/-- The same leases in another order, with their claims in another order. -/
def SameLeases (leases leases' : List LeaseSnapshot) : Prop :=
  ∃ permuted, leases.Perm permuted ∧ List.Forall₂ (fun l l' : LeaseSnapshot =>
    l.claims.Perm l'.claims ∧ l' = { l with claims := l'.claims }) permuted leases'

theorem IsClaimOf.congr {l l' : LeaseSnapshot} {c : ProjectWriteClaim} (hperm : l.claims.Perm l'.claims)
    (hsame : l' = { l with claims := l'.claims }) : IsClaimOf root l c ↔ IsClaimOf root l' c := by
  have hmem : ∀ a, a ∈ l.claims ↔ a ∈ l'.claims := fun a => hperm.mem_iff
  generalize l'.claims = claims at hsame hmem
  subst hsame
  constructor
  · rintro ⟨h₁, h₂, h₃, h₄, h₅, h₆, h₇, h₈, h₉⟩
    simp only [hmem] at h₇ h₈ h₉
    exact ⟨h₁, h₂, h₃, h₄, h₅, h₆, h₇, h₈, h₉⟩
  · rintro ⟨h₁, h₂, h₃, h₄, h₅, h₆, h₇, h₈, h₉⟩
    simp only [← hmem] at h₇ h₈ h₉
    exact ⟨h₁, h₂, h₃, h₄, h₅, h₆, h₇, h₈, h₉⟩

theorem isCurrent_congr {l l' : LeaseSnapshot} (hsame : l' = { l with claims := l'.claims }) :
    isCurrent E now l = isCurrent E now l' := by
  rw [hsame]
  rfl

theorem SameLeases.mem_claims {leases leases' : List LeaseSnapshot} (h : SameLeases leases leases')
    {c : ProjectWriteClaim} :
    c ∈ projectWriteClaims E root leases now ↔ c ∈ projectWriteClaims E root leases' now := by
  obtain ⟨permuted, hperm, hrest⟩ := h
  have hmove : c ∈ projectWriteClaims E root leases now ↔ c ∈ projectWriteClaims E root permuted now := by
    rw [mem_projectWriteClaims, mem_projectWriteClaims]
    simp only [hperm.mem_iff]
  rw [hmove, mem_projectWriteClaims, mem_projectWriteClaims]
  clear hmove hperm
  induction hrest with
  | nil => simp
  | cons hhead _ ih =>
    simp only [List.exists_mem_cons_iff, ih, @isCurrent_congr E now _ _ hhead.2,
      @IsClaimOf.congr root _ _ c hhead.1 hhead.2]

theorem SameLeases.actors {leases leases' : List LeaseSnapshot} (h : SameLeases leases leases')
    (hactors : (leases.map LeaseSnapshot.actor).Nodup) : (leases'.map LeaseSnapshot.actor).Nodup := by
  obtain ⟨permuted, hperm, hrest⟩ := h
  have hsame : permuted.map LeaseSnapshot.actor = leases'.map LeaseSnapshot.actor := by
    clear hperm
    induction hrest with
    | nil => rfl
    | cons hhead _ ih =>
      rw [List.map_cons, List.map_cons, ih, hhead.2]
      rfl
  rw [← hsame]
  exact (hperm.map _).nodup_iff.1 hactors

/-- **The order of leases and of their claims does not matter.** -/
theorem projectWriteClaims_congr {leases leases' : List LeaseSnapshot} (h : SameLeases leases leases')
    (hactors : (leases.map LeaseSnapshot.actor).Nodup) :
    projectWriteClaims E root leases now = projectWriteClaims E root leases' now := by
  have hordered := @projectWriteClaims_ordered E root now leases hactors
  have hordered' := @projectWriteClaims_ordered E root now leases' (h.actors hactors)
  have hnodup : ∀ {cs : List ProjectWriteClaim}, cs.Pairwise
      (fun c d => compareUtf16CodeUnits (claimIdentity c) (claimIdentity d) = .lt) → cs.Nodup := by
    intro cs hcs
    refine hcs.imp fun {c d} hlt heq => ?_
    rw [heq, compare_eq.2 rfl] at hlt
    cases hlt
  have hperm := (List.perm_ext_iff_of_nodup (hnodup hordered) (hnodup hordered')).2 fun c =>
    @SameLeases.mem_claims E root now _ _ h c
  refine hperm.eq_of_pairwise (fun c d _ _ hcd hdc => ?_) hordered hordered'
  rw [(compare_swap _ _).1 hcd] at hdc
  cases hdc

end

/-! ## Pairs of claims -/

/-- Two claims of different sessions in different workstreams, one of them the workstream that
is asked for, whose known paths meet. -/
structure Meets (workstreamId : Option JsString) (a b : ProjectWriteClaim) : Prop where
  workstreams : a.workstreamId ≠ b.workstreamId
  sessions : ¬ (a.provider = b.provider ∧ a.sessionId = b.sessionId)
  scope : workstreamId.isSome → a.workstreamId = workstreamId ∨ b.workstreamId = workstreamId
  paths : ∃ p q, a.path = some p ∧ b.path = some q ∧ PathsMeet p q

variable {workstreamId : Option JsString}

theorem Meets.symm {a b : ProjectWriteClaim} (h : Meets workstreamId a b) : Meets workstreamId b a := by
  obtain ⟨p, q, hp, hq, hmeet⟩ := h.paths
  exact ⟨h.workstreams.symm, fun hsame => h.sessions ⟨hsame.1.symm, hsame.2.symm⟩, fun hscope => (h.scope hscope).symm,
    q, p, hq, hp, hmeet.symm⟩

/-- The pair of an overlap, whichever side is shown as the local one. -/
def IsPair (o : ProjectClaimOverlap) (a b : ProjectWriteClaim) : Prop :=
  (o.localClaim = a ∧ o.foreignClaim = b) ∨ (o.localClaim = b ∧ o.foreignClaim = a)

/-- How an overlap of a pair is told. -/
structure Tells (workstreamId : Option JsString) (o : ProjectClaimOverlap) : Prop where
  meets : Meets workstreamId o.localClaim o.foreignClaim
  near : workstreamId.isSome → o.localClaim.workstreamId = workstreamId
  confidence : o.confidence = overlapConfidence o.localClaim o.foreignClaim
  advisory : o.advisory = true

theorem overlapOf_isSome {l r : ProjectWriteClaim} (h : Meets workstreamId l r) :
    ∃ o, overlapOf workstreamId l r = some o := by
  obtain ⟨p, q, hp, hq, hmeet⟩ := h.paths
  have hscope : ¬ (workstreamId.isSome ∧ l.workstreamId ≠ workstreamId ∧ r.workstreamId ≠ workstreamId) := by
    rintro ⟨hsome, hl, hr⟩
    exact (h.scope hsome).elim hl hr
  simp only [overlapOf, hp, hq, if_neg h.workstreams, if_neg h.sessions, if_neg hscope,
    (claimPathsOverlap_iff p q).2 hmeet]
  exact ⟨_, rfl⟩

theorem overlapConfidence_comm (l r : ProjectWriteClaim) : overlapConfidence l r = overlapConfidence r l := by
  unfold overlapConfidence
  have hswap : (l.confidence = .exact ∧ r.confidence = .exact ∧ l.path = r.path) ↔
      (r.confidence = .exact ∧ l.confidence = .exact ∧ r.path = l.path) := by
    rw [and_left_comm, eq_comm (a := l.path)]
  simp only [hswap]

theorem overlapOf_tells {l r : ProjectWriteClaim} {o : ProjectClaimOverlap} (h : overlapOf workstreamId l r = some o) :
    Tells workstreamId o ∧ IsPair o l r := by
  unfold overlapOf at h
  split at h
  · next p q hp hq =>
    split_ifs at h with hworkstreams hsessions hscope hpaths
    simp only [Bool.not_eq_true', Bool.not_eq_false] at hpaths
    have hmeets : Meets workstreamId l r := by
      refine ⟨hworkstreams, hsessions, fun hsome => ?_, p, q, hp, hq, (claimPathsOverlap_iff p q).1 hpaths⟩
      by_contra hneither
      exact hscope ⟨hsome, not_or.1 hneither⟩
    by_cases hswapped : (workstreamId.isSome && decide (r.workstreamId = workstreamId)) = true
    · simp only [hswapped, if_true] at h
      cases h
      simp only [Bool.and_eq_true, decide_eq_true_eq] at hswapped
      exact ⟨⟨hmeets.symm, fun _ => hswapped.2, overlapConfidence_comm l r, rfl⟩, .inr ⟨rfl, rfl⟩⟩
    · simp only [hswapped, Bool.false_eq_true, if_false] at h
      cases h
      simp only [Bool.and_eq_true, decide_eq_true_eq, not_and] at hswapped
      exact ⟨⟨hmeets, fun hsome => (hmeets.scope hsome).resolve_right (hswapped hsome), rfl, rfl⟩, .inl ⟨rfl, rfl⟩⟩
  · cases h

/-- The overlaps of a list are those of its pairs. -/
theorem mem_overlaps {claims : List ProjectWriteClaim} {o : ProjectClaimOverlap} :
    o ∈ projectClaimOverlaps workstreamId claims ↔
      ∃ l r, [l, r].Sublist claims ∧ overlapOf workstreamId l r = some o := by
  induction claims with
  | nil => simp [projectClaimOverlaps]
  | cons c claims ih =>
    rw [projectClaimOverlaps, List.mem_append, List.mem_filterMap, ih]
    constructor
    · rintro (⟨r, hr, ho⟩ | ⟨l, r, hsub, ho⟩)
      · exact ⟨c, r, (List.singleton_sublist.2 hr).cons_cons c, ho⟩
      · exact ⟨l, r, hsub.cons c, ho⟩
    · rintro ⟨l, r, hsub, ho⟩
      cases hsub with
      | cons _ hsub => exact .inr ⟨l, r, hsub, ho⟩
      | cons_cons _ hsub => exact .inl ⟨r, List.singleton_sublist.1 hsub, ho⟩

/-- Two different elements stand in a list one after the other. -/
theorem pair_sublist {claims : List ProjectWriteClaim} {a b : ProjectWriteClaim} (ha : a ∈ claims)
    (hb : b ∈ claims) (hne : a ≠ b) : [a, b].Sublist claims ∨ [b, a].Sublist claims := by
  induction claims with
  | nil => cases ha
  | cons c claims ih =>
    rcases List.mem_cons.1 ha with rfl | ha'
    · rcases List.mem_cons.1 hb with rfl | hb'
      · exact absurd rfl hne
      · exact .inl ((List.singleton_sublist.2 hb').cons_cons a)
    · rcases List.mem_cons.1 hb with rfl | hb'
      · exact .inr ((List.singleton_sublist.2 ha').cons_cons b)
      · exact (ih ha' hb').imp (·.cons c) (·.cons c)

/-- No pair is told twice. -/
theorem overlaps_once {claims : List ProjectWriteClaim} (hnodup : claims.Nodup) :
    (projectClaimOverlaps workstreamId claims).Pairwise (fun o o' => ¬ IsPair o o'.localClaim o'.foreignClaim) := by
  induction claims with
  | nil => exact .nil
  | cons c claims ih =>
    obtain ⟨hnew, hnodup⟩ := List.nodup_cons.1 hnodup
    rw [projectClaimOverlaps, List.pairwise_append]
    refine ⟨?_, ih hnodup, fun o ho o' ho' hpair => ?_⟩
    · have hdifferent : claims.Pairwise (· ≠ ·) := hnodup
      refine hdifferent.filterMap _ fun r r' hne o ho o' ho' hpair => ?_
      have hr := (overlapOf_tells ho).2
      have hr' := (overlapOf_tells ho').2
      have hmeets := (overlapOf_tells ho).1.meets.workstreams
      have hmeets' := (overlapOf_tells ho').1.meets.workstreams
      unfold IsPair at hr hr' hpair
      rcases hr with ⟨h₁, h₂⟩ | ⟨h₁, h₂⟩ <;> rcases hr' with ⟨h₃, h₄⟩ | ⟨h₃, h₄⟩ <;> simp_all
    · obtain ⟨r, hr, ho⟩ := List.mem_filterMap.1 ho
      obtain ⟨l', r', hsub, ho'⟩ := mem_overlaps.1 ho'
      have hl' : l' ∈ claims := hsub.subset (by simp)
      have hr' : r' ∈ claims := hsub.subset (by simp)
      have hmember : o'.localClaim ∈ claims ∧ o'.foreignClaim ∈ claims := by
        rcases (overlapOf_tells ho').2 with ⟨h₁, h₂⟩ | ⟨h₁, h₂⟩
        · rw [h₁, h₂]
          exact ⟨hl', hr'⟩
        · rw [h₁, h₂]
          exact ⟨hr', hl'⟩
      have hhead : c = o'.localClaim ∨ c = o'.foreignClaim := by
        rcases (overlapOf_tells ho).2 with ⟨h₁, -⟩ | ⟨-, h₁⟩
        · rcases hpair with ⟨h₂, -⟩ | ⟨h₂, -⟩
          · exact .inl (h₁.symm.trans h₂)
          · exact .inr (h₁.symm.trans h₂)
        · rcases hpair with ⟨-, h₂⟩ | ⟨-, h₂⟩
          · exact .inr (h₁.symm.trans h₂)
          · exact .inl (h₁.symm.trans h₂)
      rcases hhead with h | h
      · exact hnew (h ▸ hmember.1)
      · exact hnew (h ▸ hmember.2)

/-- The overlaps are the pairs of claims that meet, each of them once. -/
structure OverlapsExact (workstreamId : Option JsString) (claims : List ProjectWriteClaim)
    (overlaps : List ProjectClaimOverlap) : Prop where
  sound : ∀ o ∈ overlaps, o.localClaim ∈ claims ∧ o.foreignClaim ∈ claims ∧ Tells workstreamId o
  complete : ∀ a ∈ claims, ∀ b ∈ claims, Meets workstreamId a b → ∃ o ∈ overlaps, IsPair o a b
  once : overlaps.Pairwise (fun o o' => ¬ IsPair o o'.localClaim o'.foreignClaim)

theorem projectClaimOverlaps_exact {claims : List ProjectWriteClaim} (hnodup : claims.Nodup) :
    OverlapsExact workstreamId claims (projectClaimOverlaps workstreamId claims) := by
  refine ⟨fun o ho => ?_, fun a ha b hb hmeets => ?_, overlaps_once hnodup⟩
  · obtain ⟨l, r, hsub, ho⟩ := mem_overlaps.1 ho
    have hl : l ∈ claims := hsub.subset (by simp)
    have hr : r ∈ claims := hsub.subset (by simp)
    obtain ⟨htells, hpair⟩ := overlapOf_tells ho
    rcases hpair with ⟨rfl, rfl⟩ | ⟨rfl, rfl⟩
    · exact ⟨hl, hr, htells⟩
    · exact ⟨hr, hl, htells⟩
  · have hne : a ≠ b := fun heq => hmeets.workstreams (by rw [heq])
    rcases pair_sublist ha hb hne with hsub | hsub
    · obtain ⟨o, ho⟩ := overlapOf_isSome hmeets
      exact ⟨o, mem_overlaps.2 ⟨a, b, hsub, ho⟩, (overlapOf_tells ho).2⟩
    · obtain ⟨o, ho⟩ := overlapOf_isSome hmeets.symm
      exact ⟨o, mem_overlaps.2 ⟨b, a, hsub, ho⟩, (overlapOf_tells ho).2.symm⟩

theorem projectWriteClaims_nodup {E : Host} {root : List JsString} {now : ℤ} {leases : List LeaseSnapshot}
    (hactors : (leases.map LeaseSnapshot.actor).Nodup) : (projectWriteClaims E root leases now).Nodup := by
  refine (@projectWriteClaims_ordered E root now leases hactors).imp fun {c d} hlt heq => ?_
  rw [heq, compare_eq.2 rfl] at hlt
  cases hlt

/-- **Claim overlaps are exact.** Of leases of different actors the claims and the overlaps do
not depend on the order of the leases or of the claims in them; the claims are what the
current leases say; and the overlaps are exactly the pairs of claims that meet, each told
once, with the workstream that is asked for as the local side. -/
theorem overlaps_exact (E : Host) (root : List JsString) (now : ℤ) (workstreamId : Option JsString)
    (leases leases' : List LeaseSnapshot) (hactors : (leases.map LeaseSnapshot.actor).Nodup)
    (hsame : SameLeases leases leases') :
    projectWriteClaims E root leases now = projectWriteClaims E root leases' now ∧
      projectClaimOverlaps workstreamId (projectWriteClaims E root leases now) =
        projectClaimOverlaps workstreamId (projectWriteClaims E root leases' now) ∧
      (∀ c, c ∈ projectWriteClaims E root leases now ↔
        ∃ lease ∈ leases, isCurrent E now lease = true ∧ IsClaimOf root lease c) ∧
      (projectWriteClaims E root leases now).Nodup ∧
      OverlapsExact workstreamId (projectWriteClaims E root leases now)
        (projectClaimOverlaps workstreamId (projectWriteClaims E root leases now)) := by
  have hclaims := @projectWriteClaims_congr E root now leases leases' hsame hactors
  have hnodup := @projectWriteClaims_nodup E root now leases hactors
  exact ⟨hclaims, by rw [hclaims], fun c => mem_projectWriteClaims, hnodup, projectClaimOverlaps_exact hnodup⟩

/-! ## Leases of one project -/

def conflictHost : Host :=
  Host.ofTables [] [(1000, js "1970-01-01T00:00:01.000Z"), (2000, js "1970-01-01T00:00:02.000Z")] (by decide)

/-- A lease of the main agent of a session, with one exact claim. -/
def claimingLease (sessionId workstreamId path expiresAt : String) : LeaseSnapshot where
  leaseId := js sessionId
  provider := js "claude"
  sessionId := js sessionId
  agentId := js "main"
  workstreamId := some (js workstreamId)
  state := .working
  claims := [⟨js path, js "write", js "exact"⟩]
  unknownWriteScope := false
  updatedAt := js "1970-01-01T00:00:00.000Z"
  expiresAt := js expiresAt

/-- The lease of a directory and the lease of a file in it, in both orders. -/
theorem overlaps_exact_nested :
    projectClaimOverlaps (some (js "ws_b")) (projectWriteClaims conflictHost [js "repo"]
        [claimingLease "ses_a" "ws_a" "src" "1970-01-01T00:00:01.000Z",
          claimingLease "ses_b" "ws_b" "src/x.ts" "1970-01-01T00:00:01.000Z"] 0) =
      projectClaimOverlaps (some (js "ws_b")) (projectWriteClaims conflictHost [js "repo"]
        [claimingLease "ses_b" "ws_b" "src/x.ts" "1970-01-01T00:00:01.000Z",
          claimingLease "ses_a" "ws_a" "src" "1970-01-01T00:00:01.000Z"] 0) := by
  have hself : ∀ l : LeaseSnapshot, l.claims.Perm l.claims ∧ l = { l with claims := l.claims } :=
    fun l => ⟨.refl _, rfl⟩
  refine (overlaps_exact conflictHost [js "repo"] 0 (some (js "ws_b")) _ _ (by decide)
    ⟨_, .swap _ _ _, ?_⟩).2.1
  exact .cons (hself _) (.cons (hself _) .nil)

/-- Two leases of one actor, which end at different times. -/
def actorLease (expiresAt : String) : LeaseSnapshot := claimingLease "ses_a" "ws_a" "src" expiresAt

def actorClaim (expiresAt : String) : ProjectWriteClaim where
  leaseId := js "ses_a"
  provider := js "claude"
  sessionId := js "ses_a"
  agentId := js "main"
  workstreamId := some (js "ws_a")
  path := some (js "src")
  confidence := .exact
  unknownWriteScope := false
  expiresAt := js expiresAt

theorem actorClaims (first second : String)
    (hfirst : isCurrent conflictHost 0 (actorLease first) = true)
    (hsecond : isCurrent conflictHost 0 (actorLease second) = true) :
    projectWriteClaims conflictHost [js "repo"] [actorLease first, actorLease second] 0 =
      [actorClaim first, actorClaim second] := by
  have hpath : normalizeRepoPath [js "repo"] (js "src") = some (js "src") := by decide
  have hexact : claimConfidence ⟨js "src", js "write", js "exact"⟩ = .exact := by decide
  have hclaims : ∀ expiresAt, leaseClaims [js "repo"] (actorLease expiresAt) = [actorClaim expiresAt] := by
    intro expiresAt
    simp [leaseClaims, actorLease, claimingLease, noteClaim, hpath, hexact, setPath, getPath, actorClaim]
  have hidentity : claimIdentity (actorClaim first) = claimIdentity (actorClaim second) := rfl
  rw [projectWriteClaims, List.filter_cons_of_pos hfirst, List.filter_cons_of_pos hsecond, List.filter_nil,
    List.flatMap_cons, List.flatMap_cons, List.flatMap_nil, hclaims, hclaims]
  refine List.mergeSort_of_pairwise ?_
  simp [hidentity, compare_eq.2 rfl]

/-- **The claims of one actor that has two leases stand in the order of the leases.** -/
theorem one_actor_twice : ¬ ∀ (E : Host) (root : List JsString) (now : ℤ) (leases leases' : List LeaseSnapshot),
    SameLeases leases leases' → projectWriteClaims E root leases now = projectWriteClaims E root leases' now := by
  intro h
  have hself : ∀ l : LeaseSnapshot, l.claims.Perm l.claims ∧ l = { l with claims := l.claims } :=
    fun l => ⟨.refl _, rfl⟩
  have hsame := h conflictHost [js "repo"] 0
    [actorLease "1970-01-01T00:00:01.000Z", actorLease "1970-01-01T00:00:02.000Z"]
    [actorLease "1970-01-01T00:00:02.000Z", actorLease "1970-01-01T00:00:01.000Z"]
    ⟨_, .swap _ _ _, .cons (hself _) (.cons (hself _) .nil)⟩
  rw [actorClaims _ _ (by decide) (by decide),
    actorClaims _ _ (by decide) (by decide)] at hsame
  have hends := congrArg ProjectWriteClaim.expiresAt (List.cons.inj hsame).1
  revert hends
  decide

end Barbaro.Active
