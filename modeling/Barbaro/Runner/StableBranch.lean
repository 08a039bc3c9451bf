import Barbaro.Lib.ParentLinks
import Barbaro.Runner.BranchGraph

/-!
# A stable snapshot is a connected branch

Where neither flag is set, the branch has the leaf, goes up to the roots of the snapshot
without a cycle, and has every semantic row after the pointer.

* `ancestry_grown`: the chain of the leaf.
* `settle_grown`: an anchored response that is admitted hangs on it.
* `gather_grown`, `walk_grown`: so does all that continues it.
* `stable_branch`: the three put together.
-/

namespace Barbaro.Claude

open Loop ParentLinks

variable {E : Host} {G : BranchGraph} {rows : List TraceRow} {leaf : JsString}

theorem parent_of_missing {u : JsString} (h : u ∉ G.uuids) : G.parent u = none := by
  rw [BranchGraph.parent, Option.not_isSome_iff_eq_none.1 fun hu => h (mem_uuids.2 hu)]
  rfl

/-! ## The chain of the leaf -/

/-- The chain of the leaf, with all its parents. -/
structure LeafChain (G : BranchGraph) (leaf : JsString) (A : List JsString) : Prop where
  leaf : leaf ∈ A
  parents : ∀ u ∈ A, ∀ p, G.parent u = some p → p ∈ A

theorem ancestry_grown {n : ℕ} {A : List JsString} {cycle : Option JsString}
    (h : run (ancestryRound G) n ([], some leaf) = some (A, cycle)) :
    LeafChain G leaf A ∧ (cycle = none → ∀ u ∈ A, ¬ OnCycle G.parent u) := by
  refine run_invariant
    (I := fun s => (leaf ∈ s.1 ∨ s.2 = some leaf) ∧
      (∀ u ∈ s.1, ∀ p, G.parent u = some p → p ∈ s.1 ∨ s.2 = some p) ∧
      ∀ u ∈ s.1, OnCycle G.parent u → ∃ c, s.2 = some c ∧ OnCycle G.parent c)
    (Q := fun s => LeafChain G leaf s.1 ∧ (s.2 = none → ∀ u ∈ s.1, ¬ OnCycle G.parent u))
    ?_ ?_ ⟨Or.inr rfl, by simp, by simp⟩ h
  · rintro ⟨A, cursor⟩ s' ⟨hleaf, hparents, hcycle⟩ hround
    cases cursor with
    | none => cases hround
    | some cursor =>
      simp only [ancestryRound] at hround
      split_ifs at hround
      · cases hround
      cases hround
      refine ⟨?_, ?_, ?_⟩
      · rcases hleaf with hleaf | hleaf
        · exact Or.inl (List.mem_append_left _ hleaf)
        · cases hleaf
          exact Or.inl (by simp)
      · intro u hu p hp
        rcases List.mem_append.1 hu with hu | hu
        · rcases hparents u hu p hp with hin | hin
          · exact Or.inl (List.mem_append_left _ hin)
          · cases hin
            exact Or.inl (by simp)
        · rw [List.mem_singleton.1 hu] at hp
          exact Or.inr hp
      · intro u hu hon
        have hcursor : OnCycle G.parent cursor := by
          rcases List.mem_append.1 hu with hu | hu
          · obtain ⟨c, hc, hon⟩ := hcycle u hu hon
            cases hc
            exact hon
          · rwa [List.mem_singleton.1 hu] at hon
        obtain ⟨p, hp, hon⟩ := hcursor.exists_parent
        exact ⟨p, hp, hon⟩
  · rintro ⟨A, cursor⟩ r ⟨hleaf, hparents, hcycle⟩ hround
    cases cursor with
    | none =>
      cases hround
      refine ⟨⟨by simpa using hleaf, ?_⟩, ?_⟩
      · intro u hu p hp
        simpa using hparents u hu p hp
      · intro _ u hu hon
        obtain ⟨c, hc, -⟩ := hcycle u hu hon
        cases hc
    | some cursor =>
      simp only [ancestryRound] at hround
      split_ifs at hround with hA
      · cases hround
        refine ⟨⟨?_, ?_⟩, by simp⟩
        · rcases hleaf with hleaf | hleaf
          · exact hleaf
          · cases hleaf
            exact hA
        · intro u hu p hp
          rcases hparents u hu p hp with hin | hin
          · exact hin
          · cases hin
            exact hA
      · cases hround

theorem findAnchor_mem {A : List JsString} {anchor : ResponseAnchor} (h : findAnchor E G A = some anchor) :
    anchor.uuid ∈ A := by
  induction A with
  | nil => cases h
  | cons u us ih =>
    rw [findAnchor] at h
    split at h
    · cases h
      exact List.mem_cons_self
    · split at h
      · cases h
      · exact List.mem_cons_of_mem _ (ih h)

/-! ## The component of a response -/

section
variable {anchor : ResponseAnchor} {A : List JsString}

/-- Where an element hangs, unless it is a duplicate: on the component, on the chain, or on
nothing inside the snapshot. -/
def HangsOn (G : BranchGraph) (A component : List JsString) (u : JsString) : Prop :=
  u ∈ G.duplicates ∨ u ∈ A ∨ u ∉ G.uuids ∨
    ∃ p, G.parent u = some p ∧ (p ∈ component ∨ p ∈ A ∨ p ∉ G.uuids)

theorem HangsOn.mono {C C' : List JsString} {u : JsString} (h : HangsOn G A C u) (hsub : ∀ v ∈ C, v ∈ C') :
    HangsOn G A C' u := by
  rcases h with h | h | h | ⟨p, hp, h | h | h⟩
  · exact Or.inl h
  · exact Or.inr (Or.inl h)
  · exact Or.inr (Or.inr (Or.inl h))
  · exact Or.inr (Or.inr (Or.inr ⟨p, hp, Or.inl (hsub p h)⟩))
  · exact Or.inr (Or.inr (Or.inr ⟨p, hp, Or.inr (Or.inl h)⟩))
  · exact Or.inr (Or.inr (Or.inr ⟨p, hp, Or.inr (Or.inr h)⟩))

/-- The parent of an element that hangs is no further away. -/
theorem HangsOn.parent {C : List JsString} {u p : JsString} (h : HangsOn G A C u) (hA : LeafChain G leaf A)
    (hdup : u ∉ G.duplicates) (hu : u ∈ G.uuids) (hp : G.parent u = some p) : p ∈ C ∨ p ∈ A ∨ p ∉ G.uuids := by
  rcases h with h | h | h | ⟨q, hq, h⟩
  · exact absurd h hdup
  · exact Or.inr (Or.inl (hA.parents u h p hp))
  · exact absurd hu h
  · rw [hp] at hq
    cases hq
    exact h

/-- Without a duplicate in it the component hangs on the chain. -/
theorem discovery_hangs (hG : G.Of rows) (hA : LeafChain G leaf A) {n : ℕ} {start : JsString} (hstart : start ∈ A)
    {d : Discovery} (h : run (discoveryRound G anchor A) n { pending := [start] } = some d) :
    (∃ u ∈ d.component, u ∈ G.duplicates) ∨ ∀ u ∈ d.component, HangsOn G A d.component u := by
  refine run_invariant
    (I := fun s : Discovery => (∃ u ∈ s.component, u ∈ G.duplicates) ∨
      ∀ u, u ∈ s.pending ∨ u ∈ s.component → HangsOn G A s.component u)
    (Q := fun d : Discovery => (∃ u ∈ d.component, u ∈ G.duplicates) ∨
      ∀ u ∈ d.component, HangsOn G A d.component u) ?_ ?_ ?_ h
  · intro s s' hs hround
    obtain ⟨u, pending, hpending, rfl | ⟨hu, hcomponent, rfl⟩⟩ := discoveryRound_next hround
    · rcases hs with hs | hs
      · exact Or.inl hs
      · refine Or.inr fun v hv => hs v ?_
        rcases hv with hv | hv
        · exact Or.inl (by rw [hpending]; exact List.mem_cons_of_mem _ hv)
        · exact Or.inr hv
    · rcases hs with ⟨v, hv, hdup⟩ | hs
      · exact Or.inl ⟨v, List.mem_append_left _ hv, hdup⟩
      by_cases hdup : u ∈ G.duplicates
      · exact Or.inl ⟨u, by simp, hdup⟩
      refine Or.inr ?_
      have hsub : ∀ v ∈ s.component, v ∈ s.component ++ [u] := fun v hv => List.mem_append_left _ hv
      have hself := hs u (Or.inl (by rw [hpending]; exact List.mem_cons_self))
      -- where the parent of the new element is, and its siblings with it
      have hparent : ∀ p, G.parent u = some p → p ∈ s.component ++ [u] ∨ p ∈ A ∨ p ∉ G.uuids := by
        intro p hp
        rcases hself.parent hA hdup hu hp with h | h | h
        · exact Or.inl (hsub p h)
        · exact Or.inr (Or.inl h)
        · exact Or.inr (Or.inr h)
      have hchild : ∀ q v, (q ∈ s.component ++ [u] ∨ q ∈ A ∨ q ∉ G.uuids) → v ∈ G.children q →
          HangsOn G A (s.component ++ [u]) v := by
        intro q v hq hv
        rcases parent_of_children hG hv with hv | hv
        · exact Or.inl hv
        · exact Or.inr (Or.inr (Or.inr ⟨q, hv, hq⟩))
      intro v hv
      rcases hv with hv | hv
      · rcases List.mem_append.1 hv with hv | hv
        · rw [List.mem_reverse, discoverFrom, List.mem_append] at hv
          rcases hv with hv | hv
          · split at hv
            · cases hv
            · next p hp =>
              rcases List.mem_cons.1 hv with rfl | hv
              · rcases hself.parent hA hdup hu hp with h | h | h
                · exact (hs v (Or.inr h)).mono hsub
                · exact Or.inr (Or.inl h)
                · exact Or.inr (Or.inr (Or.inl h))
              · split at hv
                · exact hchild p v (hparent p hp) hv
                · cases hv
          · exact hchild u v (Or.inl (by simp)) hv
        · exact (hs v (Or.inl (by rw [hpending]; exact List.mem_cons_of_mem _ hv))).mono hsub
      · rcases List.mem_append.1 hv with hv | hv
        · exact (hs v (Or.inr hv)).mono hsub
        · rw [List.mem_singleton.1 hv]
          exact hself.mono hsub
  · intro s r hs hround
    obtain rfl : s = r := by
      rw [discoveryRound] at hround
      split at hround
      · cases hround
        rfl
      · split at hround
        · cases hround
        · split at hround
          · cases hround
          · obtain ⟨side, -, hround⟩ := Option.map_eq_some_iff.1 hround
            cases side <;> cases hround
    rcases hs with hs | hs
    · exact Or.inl hs
    · exact Or.inr fun u hu => hs u (Or.inr hu)
  · refine Or.inr fun u hu => Or.inr (Or.inl ?_)
    have hu : u = start := by simpa using hu
    rwa [hu]

theorem climbRound_next {component : List JsString} {s s' : Climb}
    (h : climbRound G component s = some (.next s')) :
    ∃ c, s.cursor = some c ∧ c ∈ component ∧
      s' = ⟨s.seen ++ [c], G.parent c, s.flagged || c ∈ G.duplicates⟩ := by
  rw [climbRound] at h
  split at h
  · cases h
  · next c hc =>
    split at h
    · cases h
    · next hin =>
      split at h
      · cases h
      · cases h
        exact ⟨c, hc, not_not.1 hin, rfl⟩

theorem climbRound_done {component : List JsString} {s : Climb}
    (h : climbRound G component s = some (.done false)) :
    s.flagged = false ∧ ∀ c, s.cursor = some c → c ∉ component := by
  rw [climbRound] at h
  split at h
  · next hnone =>
    injection h with h
    injection h with h
    exact ⟨h, fun c hc => by rw [hnone] at hc; cases hc⟩
  · next c hc =>
    split at h
    · next hout =>
      injection h with h
      injection h with h
      refine ⟨h, fun c' hc' => ?_⟩
      rw [hc] at hc'
      cases hc'
      exact hout
    · split at h
      · cases h
      · cases h

/-- A way up that is not flagged does not start at a duplicate. -/
theorem climb_not_duplicate {component : List JsString} {u : JsString} (hu : u ∈ component) {n : ℕ}
    (h : run (climbRound G component) n { cursor := some u } = some false) : u ∉ G.duplicates := by
  refine run_invariant
    (I := fun s : Climb => (u ∈ G.duplicates → s.flagged = true) ∨ s.cursor = some u)
    (Q := fun b => b = false → u ∉ G.duplicates) ?_ ?_ (Or.inr rfl) h rfl
  · intro s s' hs hround
    obtain ⟨c, hc, -, rfl⟩ := climbRound_next hround
    refine Or.inl fun hdup => ?_
    rcases hs with hflag | hcursor
    · simp [hflag hdup]
    · rw [hc] at hcursor
      cases hcursor
      simp [hdup]
  · intro s b hs hround hb hdup
    subst hb
    obtain ⟨hflagged, hout⟩ := climbRound_done hround
    rcases hs with hflag | hcursor
    · rw [hflag hdup] at hflagged
      cases hflagged
    · exact hout u hcursor hu

/-- What the rows of a component hang on has no cycles. -/
structure Hanging (G : BranchGraph) (A component : List JsString) : Prop where
  rows : ∀ u ∈ component, u ∈ G.uuids
  single : ∀ u ∈ component, u ∉ G.duplicates
  hangs : ∀ u ∈ component, HangsOn G A component u
  acyclic : ∀ u ∈ A, ¬ OnCycle G.parent u

/-- A way up that is not flagged leaves the component, so it is on no cycle. -/
theorem climb_acyclic {component : List JsString} (hA : LeafChain G leaf A) (hcomponent : Hanging G A component)
    {u : JsString} (hu : u ∈ component) {n : ℕ}
    (h : run (climbRound G component) n { cursor := some u } = some false) : ¬ OnCycle G.parent u := by
  refine run_invariant
    (I := fun s : Climb => OnCycle G.parent u → ∃ c, s.cursor = some c ∧ OnCycle G.parent c ∧
      (c ∈ component ∨ ∃ v ∈ component, G.parent v = some c))
    (Q := fun b => b = false → ¬ OnCycle G.parent u) ?_ ?_ (fun hon => ⟨u, rfl, hon, Or.inl hu⟩) h rfl
  · intro s s' hs hround hon
    obtain ⟨c, hc, hin, rfl⟩ := climbRound_next hround
    obtain ⟨c', hc', hon, -⟩ := hs hon
    rw [hc] at hc'
    cases hc'
    obtain ⟨p, hp, hon⟩ := hon.exists_parent
    exact ⟨p, hp, hon, Or.inr ⟨c, hin, hp⟩⟩
  · intro s b hs hround hb hon
    subst hb
    obtain ⟨-, hout⟩ := climbRound_done hround
    obtain ⟨c, hc, hon, hplace⟩ := hs hon
    rcases hplace with hin | ⟨v, hv, hp⟩
    · exact hout c hc hin
    · rcases (hcomponent.hangs v hv).parent hA (hcomponent.single v hv) (hcomponent.rows v hv) hp with hin | hin | hin
      · exact hout c hc hin
      · exact hcomponent.acyclic c hin hon
      · exact not_onCycle_of_none (parent_of_missing hin) hon

/-- The way between two rows of the response stays in the component. -/
theorem bridge_closed {component group : List JsString} {start : Option JsString} {n : ℕ} {seen : List JsString}
    (h : run (bridgeRound G component group) n ([], start) = some seen) :
    (∀ v ∈ seen, v ∈ component) ∧
      ∀ p, (start = some p ∨ ∃ v ∈ seen, G.parent v = some p) → p ∈ seen ∨ p ∉ component ∨ p ∈ group := by
  refine run_invariant
    (I := fun s : List JsString × Option JsString => (∀ v ∈ s.1, v ∈ component) ∧
      ∀ p, (start = some p ∨ ∃ v ∈ s.1, G.parent v = some p) → p ∈ s.1 ∨ s.2 = some p)
    (Q := fun seen : List JsString => (∀ v ∈ seen, v ∈ component) ∧
      ∀ p, (start = some p ∨ ∃ v ∈ seen, G.parent v = some p) → p ∈ seen ∨ p ∉ component ∨ p ∈ group)
    ?_ ?_ ⟨by simp, fun p hp => Or.inr (by simpa using hp)⟩ h
  · rintro ⟨seen, cursor⟩ s' ⟨hin, hparents⟩ hround
    cases cursor with
    | none => cases hround
    | some cursor =>
      simp only [bridgeRound] at hround
      split at hround
      · next hcursor =>
        cases hround
        refine ⟨?_, ?_⟩
        · intro v hv
          rcases List.mem_append.1 hv with hv | hv
          · exact hin v hv
          · rw [List.mem_singleton.1 hv]
            exact hcursor.1
        · intro p hp
          have hold : (start = some p ∨ ∃ v ∈ seen, G.parent v = some p) → p ∈ seen ++ [cursor] := by
            intro hp
            rcases hparents p hp with hp | hp
            · exact List.mem_append_left _ hp
            · cases hp
              simp
          rcases hp with hp | ⟨v, hv, hp⟩
          · exact Or.inl (hold (Or.inl hp))
          · rcases List.mem_append.1 hv with hv | hv
            · exact Or.inl (hold (Or.inr ⟨v, hv, hp⟩))
            · rw [List.mem_singleton.1 hv] at hp
              exact Or.inr hp
      · cases hround
  · rintro ⟨seen, cursor⟩ r ⟨hin, hparents⟩ hround
    cases cursor with
    | none =>
      cases hround
      exact ⟨hin, fun p hp => Or.inl (by simpa using hparents p hp)⟩
    | some cursor =>
      simp only [bridgeRound] at hround
      split at hround
      · cases hround
      · next hcursor =>
        cases hround
        refine ⟨hin, fun p hp => ?_⟩
        rcases hparents p hp with hp | hp
        · exact Or.inl hp
        · cases hp
          simp only [not_and_or, not_not] at hcursor
          rcases hcursor with h | h | h
          · exact Or.inr (Or.inl h)
          · exact Or.inr (Or.inr h)
          · exact Or.inl h

/-- The way from a result that is not flagged ends at the response. -/
theorem result_closed {group results : List JsString} {u : JsString} {n : ℕ} {seen : List JsString}
    (h : run (resultRound G group results) n ([], some u) = some (seen, false)) :
    (∀ v ∈ seen, ∀ p, G.parent v = some p → p ∈ seen ∨ p ∈ group) ∧
      ((∀ g ∈ group, ¬ OnCycle G.parent g) → ∀ v ∈ seen, ¬ OnCycle G.parent v) := by
  refine run_invariant
    (I := fun s : List JsString × Option JsString =>
      (∀ v ∈ s.1, ∀ p, G.parent v = some p → p ∈ s.1 ∨ s.2 = some p) ∧
      ∀ v ∈ s.1, OnCycle G.parent v → ∃ c, s.2 = some c ∧ OnCycle G.parent c)
    (Q := fun r : List JsString × Bool =>
      r.2 = false → (∀ v ∈ r.1, ∀ p, G.parent v = some p → p ∈ r.1 ∨ p ∈ group) ∧
      ((∀ g ∈ group, ¬ OnCycle G.parent g) → ∀ v ∈ r.1, ¬ OnCycle G.parent v))
    ?_ ?_ ⟨by simp, by simp⟩ h rfl
  · rintro ⟨seen, cursor⟩ s' ⟨hparents, hcycle⟩ hround
    cases cursor with
    | none => cases hround
    | some cursor =>
      simp only [resultRound] at hround
      split at hround
      · cases hround
      split at hround
      · cases hround
      cases hround
      refine ⟨?_, ?_⟩
      · intro v hv p hp
        rcases List.mem_append.1 hv with hv | hv
        · rcases hparents v hv p hp with h | h
          · exact Or.inl (List.mem_append_left _ h)
          · cases h
            exact Or.inl (by simp)
        · rw [List.mem_singleton.1 hv] at hp
          exact Or.inr hp
      · intro v hv hon
        have hcursor : OnCycle G.parent cursor := by
          rcases List.mem_append.1 hv with hv | hv
          · obtain ⟨c, hc, hon⟩ := hcycle v hv hon
            cases hc
            exact hon
          · rwa [List.mem_singleton.1 hv] at hon
        exact hcursor.exists_parent
  · rintro ⟨seen, cursor⟩ ⟨seen', flagged⟩ ⟨hparents, hcycle⟩ hround hflag
    cases cursor with
    | none =>
      cases hround
      cases hflag
    | some cursor =>
      simp only [resultRound] at hround
      split at hround
      · next hgroup =>
        cases hround
        refine ⟨?_, ?_⟩
        · intro v hv p hp
          rcases hparents v hv p hp with h | h
          · exact Or.inl h
          · cases h
            exact Or.inr hgroup
        · intro hacyclic v hv hon
          obtain ⟨c, hc, hon⟩ := hcycle v hv hon
          cases hc
          exact hacyclic _ hgroup hon
      · split at hround
        · cases hround
          cases hflag
        · cases hround

theorem LeafChain.grown (hA : LeafChain G leaf A) (hacyclic : ∀ u ∈ A, ¬ OnCycle G.parent u) :
    Grown G.parent (· ∈ G.uuids) leaf A :=
  ⟨hA.leaf, fun u hu p hp _ => hA.parents u hu p hp, hacyclic⟩

/-- The members of a response that is admitted close it, without a cycle. -/
theorem members_grown {d : Discovery} {results : List JsString} {climbs : List Bool}
    {bridges : List (List JsString)} {ways : List (List JsString × Bool)} (hA : LeafChain G leaf A)
    (hacyclic : ∀ u ∈ A, ¬ OnCycle G.parent u) (hok : d.Ok G anchor)
    (hhangs : (∃ u ∈ d.component, u ∈ G.duplicates) ∨ ∀ u ∈ d.component, HangsOn G A d.component u)
    (hclimbs : (d.component.mapM fun u => run (climbRound G d.component) G.rounds { cursor := some u }) = some climbs)
    (hbridges : (d.group.mapM fun u => run (bridgeRound G d.component d.group) G.rounds ([], G.parent u)) =
      some bridges)
    (hways : (results.mapM fun u => run (resultRound G d.group results) G.rounds ([], some u)) = some ways)
    (hclimb : climbs.any id = false) (hway : ways.any (·.2) = false) :
    Grown G.parent (· ∈ G.uuids) leaf (addAll A (d.group ++ bridges.flatten ++ (ways.map (·.1)).flatten)) := by
  have hup : ∀ u ∈ d.component, run (climbRound G d.component) G.rounds { cursor := some u } = some false := by
    intro u hu
    obtain ⟨b, hb, hrun⟩ := (mapM_mem hclimbs).1 u hu
    have hfalse := List.any_eq_false.1 hclimb b hb
    rw [id, Bool.not_eq_true] at hfalse
    rwa [hfalse] at hrun
  have hsingle : ∀ u ∈ d.component, u ∉ G.duplicates := fun u hu => climb_not_duplicate hu (hup u hu)
  have hhangs : ∀ u ∈ d.component, HangsOn G A d.component u := by
    rcases hhangs with ⟨u, hu, hdup⟩ | hhangs
    · exact absurd hdup (hsingle u hu)
    · exact hhangs
  have hcomponent : Hanging G A d.component := ⟨hok.component, hsingle, hhangs, hacyclic⟩
  have hon : ∀ u ∈ d.component, ¬ OnCycle G.parent u := fun u hu => climb_acyclic hA hcomponent hu (hup u hu)
  have hgroup : ∀ u ∈ d.group, u ∈ d.component := fun u hu => ((hok.group u).1 hu).1
  have hbridge : ∀ seen ∈ bridges, (∀ v ∈ seen, v ∈ d.component) ∧ ∃ u ∈ d.group, ∀ p,
      (G.parent u = some p ∨ ∃ v ∈ seen, G.parent v = some p) → p ∈ seen ∨ p ∉ d.component ∨ p ∈ d.group := by
    intro seen hseen
    obtain ⟨u, hu, hrun⟩ := (mapM_mem hbridges).2 seen hseen
    exact ⟨(bridge_closed hrun).1, u, hu, (bridge_closed hrun).2⟩
  have hresult : ∀ way ∈ ways, (∀ v ∈ way.1, ∀ p, G.parent v = some p → p ∈ way.1 ∨ p ∈ d.group) ∧
      ∀ v ∈ way.1, ¬ OnCycle G.parent v := by
    rintro ⟨seen, flagged⟩ hin
    obtain ⟨u, -, hrun⟩ := (mapM_mem hways).2 _ hin
    have hfalse := List.any_eq_false.1 hway _ hin
    rw [Bool.not_eq_true] at hfalse
    dsimp only at hfalse
    subst hfalse
    exact ⟨(result_closed hrun).1, (result_closed hrun).2 fun g hg => hon g (hgroup g hg)⟩
  have hmem : ∀ v, v ∈ addAll A (d.group ++ bridges.flatten ++ (ways.map (·.1)).flatten) ↔
      v ∈ A ∨ v ∈ d.group ∨ (∃ seen ∈ bridges, v ∈ seen) ∨ ∃ way ∈ ways, v ∈ way.1 := by
    intro v
    simp only [mem_addAll, List.mem_append, List.mem_flatten, List.mem_map, or_assoc,
      exists_exists_and_eq_and]
  refine ⟨(hmem leaf).2 (Or.inl hA.leaf), ?_, ?_⟩
  · intro u hu p hp hin
    -- a parent outside the component is where the element hangs
    have hout : u ∈ d.component → p ∉ d.component → p ∈ A := by
      intro hu hpout
      rcases (hhangs u hu).parent hA (hsingle u hu) (hok.component u hu) hp with h | h | h
      · exact absurd h hpout
      · exact h
      · exact absurd hin h
    rw [hmem]
    rcases (hmem u).1 hu with hu | hu | ⟨seen, hseen, hu⟩ | ⟨way, hway, hu⟩
    · exact Or.inl (hA.parents u hu p hp)
    · obtain ⟨seen, hseen, hrun⟩ := (mapM_mem hbridges).1 u hu
      rcases (bridge_closed hrun).2 p (Or.inl hp) with h | h | h
      · exact Or.inr (Or.inr (Or.inl ⟨seen, hseen, h⟩))
      · exact Or.inl (hout (hgroup u hu) h)
      · exact Or.inr (Or.inl h)
    · obtain ⟨hseenin, member, -, hclosed⟩ := hbridge seen hseen
      rcases hclosed p (Or.inr ⟨u, hu, hp⟩) with h | h | h
      · exact Or.inr (Or.inr (Or.inl ⟨seen, hseen, h⟩))
      · exact Or.inl (hout (hseenin u hu) h)
      · exact Or.inr (Or.inl h)
    · rcases (hresult way hway).1 u hu p hp with h | h
      · exact Or.inr (Or.inr (Or.inr ⟨way, hway, h⟩))
      · exact Or.inr (Or.inl h)
  · intro u hu
    rcases (hmem u).1 hu with hu | hu | ⟨seen, hseen, hu⟩ | ⟨way, hway, hu⟩
    · exact hacyclic u hu
    · exact hon u (hgroup u hu)
    · exact hon u ((hbridge seen hseen).1 u hu)
    · exact (hresult way hway).2 u hu

/-- A settled branch has grown, and its frontier is on it. -/
structure Settled (G : BranchGraph) (leaf : JsString) (w : Walk) : Prop where
  grown : Grown G.parent (· ∈ G.uuids) leaf w.ancestry
  frontier : ∀ u ∈ w.frontier, u ∈ w.ancestry

theorem settleComponent_settled {d : Discovery} {start w : Walk} (hA : LeafChain G leaf start.ancestry)
    (hstart : start.ambiguous = false → Settled G leaf start) (hok : d.Ok G anchor)
    (hhangs : (∃ u ∈ d.component, u ∈ G.duplicates) ∨
      ∀ u ∈ d.component, HangsOn G start.ancestry d.component u)
    (h : settleComponent G anchor leaf d start = some w) :
    (start.ambiguous = true → w.ambiguous = true) ∧
      (w.ambiguous = false → w.unsettled = false → Settled G leaf w) := by
  rw [settleComponent] at h
  split at h
  · cases h
    exact ⟨id, fun hw _ => hstart hw⟩
  dsimp only [Option.bind_eq_bind] at h
  obtain ⟨climbs, hclimbs, h⟩ := Option.bind_eq_some_iff.1 h
  obtain ⟨bridges, hbridges, h⟩ := Option.bind_eq_some_iff.1 h
  obtain ⟨ways, hways, h⟩ := Option.bind_eq_some_iff.1 h
  split at h
  · next hflagged =>
    cases h
    refine ⟨fun hs => by simp [hs], fun hambiguous hunsettled => ?_⟩
    rcases Bool.or_eq_true_iff.1 hflagged with hflag | hflag
    · cases hflag.symm.trans hambiguous
    · cases hflag.symm.trans hunsettled
  · next hclear =>
    cases h
    simp only [Bool.or_eq_true, not_or, Bool.not_eq_true] at hclear
    obtain ⟨⟨⟨⟨⟨hambiguous, hclimb⟩, -⟩, hway⟩, -⟩, -⟩ := hclear
    refine ⟨fun hs => absurd hs (by simp [hambiguous]), fun _ _ => ⟨?_, ?_⟩⟩
    · exact members_grown hA (hstart hambiguous).grown.acyclic hok hhangs hclimbs hbridges hways hclimb hway
    · intro u hu
      rw [mem_addAll] at hu ⊢
      rcases hu with hu | hu
      · cases hu
      · rcases List.mem_cons.1 hu with rfl | hu
        · exact Or.inl hA.leaf
        · exact Or.inr hu

/-- The response the pointer has landed in is admitted as a whole, or the branch is flagged. -/
theorem settle_settled (hG : G.Of rows) {start w : Walk} (hA : LeafChain G leaf start.ancestry)
    (hanchor : anchor.uuid ∈ start.ancestry) (hstart : start.ambiguous = false → Settled G leaf start)
    (h : settleAnchor G anchor leaf start = some w) :
    (start.ambiguous = true → w.ambiguous = true) ∧
      (w.ambiguous = false → w.unsettled = false → Settled G leaf w) := by
  rw [settleAnchor, Option.bind_eq_bind, Option.bind_eq_some_iff] at h
  obtain ⟨d, hd, h⟩ := h
  exact settleComponent_settled hA hstart (discovery_ok hd) (discovery_hangs hG hA hanchor hd) h

end

/-! ## The continuation -/

section
variable (hG : G.Of rows) (hsingle : ∀ u, G.after u = true → u ∉ G.duplicates)
include hG hsingle

theorem parent_of_continuing {u child : JsString} {children : List JsString}
    (h : G.continuing (G.children u) = some children) (hchild : child ∈ children) : G.parent child = some u := by
  obtain ⟨hin, hafter⟩ := mem_continuing h hchild
  rcases parent_of_children hG hin with hdup | hparent
  · exact absurd hdup (hsingle child hafter)
  · exact hparent

/-- What is gathered hangs on what has grown. -/
structure Gathering.Grows (G : BranchGraph) (leaf : JsString) (s : Gathering) : Prop where
  grown : Grown G.parent (· ∈ G.uuids) leaf s.ancestry
  pending : ∀ u ∈ s.pending, ∃ p ∈ s.ancestry, G.parent u = some p
  semantic : ∀ u ∈ s.semantic, ∃ p ∈ s.ancestry, G.parent u = some p

theorem flatten_grows {s r : Gathering} {n : ℕ} (hs : s.Grows G leaf) (h : run (flattenRound G) n s = some r) :
    r.Grows G leaf := by
  refine run_invariant (I := Gathering.Grows G leaf) ?_ ?_ hs h
  · intro s s' hs hround
    obtain ⟨child, pending, hpending, -, ⟨-, rfl⟩ | ⟨-, children, hchildren, rfl⟩⟩ := flattenRound_next hround
    · have hrest := hs.pending
      rw [hpending] at hrest
      refine ⟨hs.grown, fun u hu => hrest u (List.mem_cons_of_mem _ hu), ?_⟩
      intro u hu
      rcases List.mem_append.1 hu with hu | hu
      · exact hs.semantic u hu
      · rw [List.mem_singleton.1 hu]
        exact hrest child List.mem_cons_self
    · have hrest := hs.pending
      rw [hpending] at hrest
      have hsub : ∀ u ∈ s.ancestry, u ∈ s.ancestry ++ [child] := fun u hu => List.mem_append_left _ hu
      refine ⟨hs.grown.extend hsub ?_, ?_, ?_⟩
      · intro u hu
        rcases List.mem_append.1 hu with hu | hu
        · exact Or.inl hu
        · rw [List.mem_singleton.1 hu]
          exact Or.inr (hrest child List.mem_cons_self)
      · intro u hu
        rcases List.mem_append.1 hu with hu | hu
        · obtain ⟨p, hp, hup⟩ := hrest u (List.mem_cons_of_mem _ hu)
          exact ⟨p, hsub p hp, hup⟩
        · exact ⟨child, by simp, parent_of_continuing hG hsingle hchildren hu⟩
      · intro u hu
        obtain ⟨p, hp, hup⟩ := hs.semantic u hu
        exact ⟨p, hsub p hp, hup⟩
  · intro s r hs hround
    rcases flattenRound_done hround with ⟨-, rfl⟩ | ⟨pending, rfl, hsub⟩
    · exact hs
    · exact ⟨hs.grown, fun u hu => hs.pending u (hsub u hu), hs.semantic⟩

theorem gather_grows {group : Option JsString} {request : RequestKey} {s r : Gathering} {n : ℕ}
    (hs : s.Grows G leaf) (h : run (gatherRound G group request) n s = some r) : r.Grows G leaf := by
  refine run_invariant (I := Gathering.Grows G leaf) ?_ ?_ hs h
  · intro s s' hs hround
    obtain ⟨g, responseRows, children, hg, -, -, hrows, hchildren, rfl⟩ := gatherRound_next hround
    have hg := flatten_grows hG hsingle hs hg
    have hsub : ∀ u ∈ g.ancestry, u ∈ addAll g.ancestry responseRows := fun u hu => mem_addAll.2 (Or.inl hu)
    refine ⟨hg.grown.extend hsub ?_, ?_, ?_⟩
    · intro u hu
      rcases mem_addAll.1 hu with hu | hu
      · exact Or.inl hu
      · exact Or.inr (hg.semantic u (hrows u hu))
    · intro u hu
      obtain ⟨list, hlist, hu⟩ := List.mem_flatten.1 hu
      obtain ⟨v, hv, hcontinuing⟩ := (mapM_mem hchildren).2 list hlist
      exact ⟨v, mem_addAll.2 (Or.inr hv), parent_of_continuing hG hsingle hcontinuing hu⟩
    · intro u hu
      obtain ⟨p, hp, hup⟩ := hg.semantic u (List.mem_of_mem_filter hu)
      exact ⟨p, hsub p hp, hup⟩
  · intro s r hs hround
    obtain ⟨g, hg, hr⟩ := gatherRound_done hround
    have hg := flatten_grows hG hsingle hs hg
    rcases hr with rfl | rfl
    · exact hg
    · exact ⟨hg.grown, hg.pending, hg.semantic⟩

/-- The first rows of a continuation are children of the frontier. -/
theorem nextChildren_grows {s : Walk} {children : List JsString} (hs : Settled G leaf s)
    (h : nextChildren G s = some children) :
    Gathering.Grows G leaf { pending := children, ancestry := s.ancestry } := by
  refine ⟨hs.grown, ?_, by simp⟩
  intro u hu
  obtain ⟨hin, hafter⟩ := mem_continuing h hu
  have hin := List.mem_of_mem_filter hin
  rw [mem_addAll, List.mem_flatMap] at hin
  rcases hin with hin | ⟨v, hv, hin⟩
  · cases hin
  · refine ⟨v, hs.frontier v hv, ?_⟩
    rcases parent_of_children hG hin with hdup | hparent
    · exact absurd hdup (hsingle u hafter)
    · exact hparent

theorem walk_settled {s r : Walk} {n : ℕ} (hs : s.ambiguous = false → s.unsettled = false → Settled G leaf s)
    (h : run (walkRound E G) n s = some r) : r.ambiguous = false → r.unsettled = false → Settled G leaf r := by
  refine run_invariant
    (I := fun s : Walk => s.ambiguous = false → s.unsettled = false → Settled G leaf s)
    (Q := fun r : Walk => r.ambiguous = false → r.unsettled = false → Settled G leaf r) ?_ ?_ hs h
  · intro s s' hs hround
    rcases walkRound_cases (E := E) hG s with ⟨-, hdone⟩ | ⟨hopen, children, hnext, ⟨-, hdone⟩ |
      ⟨g, hg, -, -, ⟨ambiguous, -, hdone⟩ | ⟨group, request, -, hwalk⟩⟩⟩
    · cases hround.symm.trans hdone
    · cases hround.symm.trans hdone
    · cases hround.symm.trans hdone
    · cases hround.symm.trans hwalk
      rw [Bool.or_eq_false_iff] at hopen
      have hgrows := gather_grows hG hsingle (nextChildren_grows hG hsingle (hs hopen.1 hopen.2) hnext) hg
      intro _ _
      refine ⟨hgrows.grown.extend (fun u hu => mem_addAll.2 (Or.inl hu)) ?_, fun u hu => mem_addAll.2 (Or.inr hu)⟩
      intro u hu
      rcases mem_addAll.1 hu with hu | hu
      · exact Or.inl hu
      · exact Or.inr (hgrows.semantic u hu)
  · intro s r hs hround hambiguous hunsettled
    rcases walkRound_cases (E := E) hG s with ⟨hstop, hdone⟩ | ⟨hopen, children, hnext, ⟨-, hdone⟩ |
      ⟨g, hg, -, hsub, ⟨ambiguous, -, hdone⟩ | ⟨group, request, -, hwalk⟩⟩⟩
    · cases hround.symm.trans hdone
      exact hs hambiguous hunsettled
    · cases hround.symm.trans hdone
      exact ⟨(hs hambiguous hunsettled).grown, (hs hambiguous hunsettled).frontier⟩
    · cases hround.symm.trans hdone
      rw [Bool.or_eq_false_iff] at hopen
      have hsettled := hs hopen.1 hopen.2
      have hgrows := gather_grows hG hsingle (nextChildren_grows hG hsingle hsettled hnext) hg
      exact ⟨hgrows.grown, fun u hu => hsub u (hsettled.frontier u hu)⟩
    · cases hround.symm.trans hwalk

end

/-- Once flagged ambiguous, a walk stays so. -/
theorem walk_ambiguous {s r : Walk} {n : ℕ} (hs : s.ambiguous = true) (h : run (walkRound E G) n s = some r) :
    r.ambiguous = true := by
  cases n with
  | zero => cases h
  | succ n =>
    have hdone : walkRound E G s = some (.done s) := by
      rw [walkRound, if_pos (by simp [hs])]
    rw [run_done hdone] at h
    cases h
    exact hs

/-- **The branch of a leaf**: unflagged it has grown from the leaf and has every semantic row
after the pointer; a duplicate there makes it ambiguous. -/
theorem walkBranch_stable (hG : G.Of rows) {w : Walk} (h : walkBranch E G leaf = some w) :
    (G.duplicates.any G.after = true → w.ambiguous = true) ∧
      (w.ambiguous = false → w.unsettled = false → Grown G.parent (· ∈ G.uuids) leaf w.ancestry ∧
        strayRow G w.ancestry = false) := by
  rw [walkBranch, Option.bind_eq_bind, Option.bind_eq_some_iff] at h
  obtain ⟨⟨A, cycle⟩, hA, h⟩ := h
  dsimp only [Option.bind_eq_bind] at h
  obtain ⟨hchain, hacyclic⟩ := ancestry_grown hA
  have hstart : (cycle.isSome || G.duplicates.any G.after) = false →
      Grown G.parent (· ∈ G.uuids) leaf A := by
    intro hclear
    rw [Bool.or_eq_false_iff, Option.isSome_eq_false_iff, Option.isNone_iff_eq_none] at hclear
    exact hchain.grown (hacyclic hclear.1)
  have hleaf : ∀ u ∈ [leaf], u ∈ A := by
    intro u hu
    rw [List.mem_singleton.1 hu]
    exact hchain.leaf
  obtain ⟨seeded, ⟨hflag, hseeded⟩, walk, hwalk, hw⟩ : ∃ seeded,
      (((cycle.isSome || G.duplicates.any G.after) = true → seeded.ambiguous = true) ∧
        (seeded.ambiguous = false → seeded.unsettled = false → Settled G leaf seeded)) ∧
      ∃ walk, run (walkRound E G) G.rounds seeded = some walk ∧
        some { walk with ambiguous := walk.ambiguous || (!walk.unsettled && strayRow G walk.ancestry) } = some w := by
    split at h
    · obtain ⟨seeded, hseeded, h⟩ := Option.bind_eq_some_iff.1 h
      cases hseeded
      exact ⟨_, ⟨id, fun hclear _ => ⟨hstart hclear, hleaf⟩⟩, Option.bind_eq_some_iff.1 h⟩
    · next anchor hanchor =>
      obtain ⟨seeded, hseeded, h⟩ := Option.bind_eq_some_iff.1 h
      exact ⟨seeded, settle_settled hG hchain (findAnchor_mem hanchor) (fun hclear => ⟨hstart hclear, hleaf⟩) hseeded,
        Option.bind_eq_some_iff.1 h⟩
  cases hw
  dsimp only
  by_cases hdup : G.duplicates.any G.after = true
  · have hambiguous := walk_ambiguous (hflag (by rw [hdup, Bool.or_true])) hwalk
    rw [hambiguous, Bool.true_or]
    exact ⟨fun _ => rfl, fun h => by cases h⟩
  · refine ⟨fun h => absurd h hdup, fun hclear hunsettled => ?_⟩
    rw [Bool.or_eq_false_iff] at hclear
    have hsingle : ∀ u, G.after u = true → u ∉ G.duplicates := fun u hafter hin =>
      hdup (List.any_eq_true.2 ⟨u, hin, hafter⟩)
    refine ⟨(walk_settled hG hsingle hseeded hwalk hclear.1 hunsettled).grown, ?_⟩
    simpa [hunsettled] using hclear.2

/-! ## A snapshot -/

/-- The rows of a trace, in the order of their lines. -/
structure TraceSnapshot where
  rows : List TraceRow
  lines : rows.Pairwise (·.lineNumber < ·.lineNumber)

section
variable (T : TraceSnapshot)

/-- The effective parent of the last row of a uuid. -/
def TraceSnapshot.parent (u : JsString) : Option JsString :=
  (lastRow T.rows u).bind fun row => effectiveParent row.value

def TraceSnapshot.Has (u : JsString) : Prop := rowsOf T.rows u ≠ []

def TraceRow.isAttachment (row : TraceRow) : Bool := textAt? "type" row.value = some (js "attachment")

/-- A branch from the leaf to the roots of the snapshot, with every semantic row after a line. -/
structure ConnectedBranch (leaf : JsString) (line : ℕ) (A : List JsString) : Prop where
  leaf : leaf ∈ A
  closed : Closed T.parent T.Has A
  tail : ∀ row ∈ T.rows, line < row.lineNumber → row.isAttachment = false → ∀ u, uuidOf row = some u → u ∈ A

variable {T}

theorem has_iff (hG : G.Of rows) {u : JsString} : u ∈ G.uuids ↔ rowsOf rows u ≠ [] := by
  rw [mem_uuids, row_some_iff hG.row]

theorem parent_eq (hG : G.Of T.rows) : G.parent = T.parent := by
  funext u
  have hcore := congrArg (fun c => c.bind fun c => c.2.2.1) (hG.row u)
  rw [Option.bind_map, Option.bind_map] at hcore
  exact hcore

/-- The last row of a uuid comes no earlier than its others. -/
theorem lastRow_line {u : JsString} {row : TraceRow} (hrow : row ∈ rowsOf T.rows u) :
    ∃ last ∈ rowsOf T.rows u, lastRow T.rows u = some last ∧ row.lineNumber ≤ last.lineNumber := by
  have hne : rowsOf T.rows u ≠ [] := List.ne_nil_of_mem hrow
  refine ⟨_, List.getLast_mem hne, List.getLast?_eq_getLast_of_ne_nil hne, ?_⟩
  have hlines : (rowsOf T.rows u).Pairwise (·.lineNumber < ·.lineNumber) := T.lines.filter _
  rw [← List.dropLast_append_getLast hne] at hrow hlines
  rcases List.mem_append.1 hrow with hrow | hrow
  · exact ((List.pairwise_append.1 hlines).2.2 row hrow _ (List.mem_singleton_self _)).le
  · rw [List.mem_singleton.1 hrow]

/-- A uuid with a row after the pointer is after it. -/
theorem after_of_line (hG : G.Of T.rows) {leaf u : JsString} {line : ℕ} {row : TraceRow}
    (hpointer : lastPointer T.rows = some (leaf, line)) (hrow : row ∈ rowsOf T.rows u)
    (hline : line < row.lineNumber) : G.after u = true := by
  obtain ⟨last, -, hlast, hle⟩ := lastRow_line hrow
  have hcore := hG.row u
  rw [hlast, Option.map_some] at hcore
  obtain ⟨r, hr, hcore⟩ := Option.map_eq_some_iff.1 hcore
  have hr_line : r.line = last.lineNumber := congrArg Prod.fst hcore
  rw [BranchGraph.after, hr, hG.pointer, hpointer]
  simp only [hr_line, decide_eq_true_eq]
  omega

/-- The only row of a uuid decides whether it is an attachment. -/
theorem isAttachment_eq (hG : G.Of T.rows) {u : JsString} {row : TraceRow} (hrow : row ∈ rowsOf T.rows u)
    (hsingle : u ∉ G.duplicates) : G.isAttachment u = row.isAttachment := by
  have hlen : (rowsOf T.rows u).length < 2 := by
    rw [hG.duplicates] at hsingle
    omega
  obtain ⟨only, honly⟩ := List.length_eq_one_iff.1 (show (rowsOf T.rows u).length = 1 by
    have := List.length_pos_of_mem hrow
    omega)
  have hcore := hG.row u
  rw [lastRow, honly, List.getLast?_singleton, Option.map_some] at hcore
  obtain ⟨r, hr, hcore⟩ := Option.map_eq_some_iff.1 hcore
  have htype : r.type = textAt? "type" only.value := congrArg (fun c => c.2.1) hcore
  rw [honly, List.mem_singleton] at hrow
  rw [BranchGraph.isAttachment, BranchGraph.type, hr, Option.bind_some, htype, TraceRow.isAttachment, hrow]

/-- **A stable snapshot is a connected branch.** Branch selection ends on every snapshot. With a
usable pointer and no flag set the branch has the leaf, the parents inside the snapshot and every
semantic row after the pointer; duplicates after the pointer are ambiguous, and so is, or
unsettled, a cycle with a semantic row after it. -/
theorem stable_snapshot (E : Host) (T : TraceSnapshot) :
    ∃ m, computeActiveMembership E T.rows = some m ∧
      ∀ leaf line, lastPointer T.rows = some (leaf, line) → leaf ≠ [] → T.Has leaf →
        ∃ b, m.branch = some b ∧
          (m.ambiguousPointerContinuation = false → b.unsettledResponseGroup = false →
            ConnectedBranch T leaf line b.ancestry) ∧
          (∀ u, 2 ≤ (rowsOf T.rows u).length → (∃ row ∈ rowsOf T.rows u, line < row.lineNumber) →
            m.ambiguousPointerContinuation = true) ∧
          ∀ u, OnCycle T.parent u → (∃ row ∈ rowsOf T.rows u, line < row.lineNumber ∧ row.isAttachment = false) →
            m.ambiguousPointerContinuation = true ∨ b.unsettledResponseGroup = true := by
  have hG := ofRows_of T.rows
  rw [computeActiveMembership]
  generalize BranchGraph.ofRows T.rows = G at hG ⊢
  cases hleaf? : G.leaf? with
  | none =>
    refine ⟨_, rfl, fun leaf line hpointer hne hhas => ?_⟩
    have hleaf : G.leaf? = some leaf := by
      rw [BranchGraph.leaf?, hG.pointer, hpointer]
      simp [hne, (row_some_iff hG.row leaf).2 hhas]
    cases hleaf?.symm.trans hleaf
  | some leaf =>
    obtain ⟨walk, hwalk⟩ := walkBranch_total (E := E) hG leaf
    obtain ⟨hduplicate, hstable⟩ := walkBranch_stable hG hwalk
    refine ⟨_, by dsimp only; rw [hwalk]; rfl, fun leaf' line hpointer _ _ => ⟨_, rfl, ?_⟩⟩
    dsimp only
    obtain rfl : leaf = leaf' := by
      rw [BranchGraph.leaf?, hG.pointer, hpointer, Option.map_some, Option.filter_eq_some_iff] at hleaf?
      exact (Option.some.inj hleaf?.1).symm
    have hdup : ∀ u, 2 ≤ (rowsOf T.rows u).length → (∃ row ∈ rowsOf T.rows u, line < row.lineNumber) →
        walk.ambiguous = true := by
      rintro u hlen ⟨row, hrow, hline⟩
      exact hduplicate (List.any_eq_true.2
        ⟨u, (hG.duplicates u).2 hlen, after_of_line hG hpointer hrow hline⟩)
    have hbranch : walk.ambiguous = false → walk.unsettled = false →
        Grown T.parent (· ∈ G.uuids) leaf walk.ancestry ∧ ∀ u, ∀ row ∈ rowsOf T.rows u, line < row.lineNumber →
          row.isAttachment = false → u ∈ walk.ancestry := by
      intro hambiguous hunsettled
      obtain ⟨hgrown, hstray⟩ := hstable hambiguous hunsettled
      refine ⟨parent_eq hG ▸ hgrown, fun u row hrow hline htype => ?_⟩
      by_contra hout
      have hafter := after_of_line hG hpointer hrow hline
      have hsingle : u ∉ G.duplicates := by
        intro hin
        rw [hdup u ((hG.duplicates u).1 hin) ⟨row, hrow, hline⟩] at hambiguous
        cases hambiguous
      obtain ⟨r, hr⟩ := Option.isSome_iff_exists.1 (mem_uuids.1 (has_of_after hafter))
      have huuid := hG.uuid u r hr
      refine Bool.eq_false_iff.1 hstray (List.any_eq_true.2 ⟨r, List.mem_of_find?_eq_some hr, ?_⟩)
      rw [huuid, hafter, isAttachment_eq hG hrow hsingle, htype]
      simp [hout]
    refine ⟨fun hambiguous hunsettled => ?_, hdup, ?_⟩
    · obtain ⟨hgrown, htail⟩ := hbranch hambiguous hunsettled
      refine ⟨hgrown.leaf, fun u hu p hp hhas => hgrown.closed u hu p hp ((has_iff hG).2 hhas), ?_⟩
      intro row hrow hline htype u huuid
      exact htail u row (List.mem_filter.2 ⟨hrow, by simpa using huuid⟩) hline htype
    · rintro u hcycle ⟨row, hrow, hline, htype⟩
      by_contra hflag
      simp only [not_or, Bool.not_eq_true] at hflag
      obtain ⟨hgrown, htail⟩ := hbranch hflag.1 hflag.2
      exact hgrown.acyclic u (htail u row hrow hline htype) hcycle

end

def textRow (line : ℕ) (fields : List (String × String)) : TraceRow :=
  ⟨.obj (fields.map fun f => (js f.1, .str (js f.2))), line⟩

/-- Two attachments after the pointer that are each other's parent. -/
def cyclicAttachments : TraceSnapshot where
  rows := [textRow 1 [("type", "user"), ("uuid", "prompt")],
    textRow 2 [("type", "last-prompt"), ("leafUuid", "prompt")],
    textRow 3 [("type", "attachment"), ("uuid", "a"), ("parentUuid", "b")],
    textRow 4 [("type", "attachment"), ("uuid", "b"), ("parentUuid", "a")]]
  lines := by decide

/-- A cycle of attachments is transparent: it is not flagged. -/
theorem attachment_cycle_unflagged :
    OnCycle cyclicAttachments.parent (js "a") ∧
      (lastPointer cyclicAttachments.rows = some (js "prompt", 2) ∧
        ∃ row ∈ rowsOf cyclicAttachments.rows (js "a"), row.lineNumber = 3) ∧
      ∃ m b, computeActiveMembership (Host.ofTables [] [] (by simp)) cyclicAttachments.rows = some m ∧
        m.branch = some b ∧ m.ambiguousPointerContinuation = false ∧ b.unsettledResponseGroup = false := by
  refine ⟨⟨1, by decide⟩, ⟨by decide, ?_⟩, ?_⟩
  · exact ⟨textRow 3 [("type", "attachment"), ("uuid", "a"), ("parentUuid", "b")],
      List.mem_filter.2 ⟨by simp [cyclicAttachments], by decide⟩, rfl⟩
  · refine ⟨{ hasFork := false, ambiguousPointerContinuation := false, branch := some _ }, ⟨[js "prompt"], [], false, [], []⟩, ?_, rfl, rfl, rfl⟩
    decide

end Barbaro.Claude
