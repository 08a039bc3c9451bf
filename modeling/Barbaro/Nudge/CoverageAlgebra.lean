import Barbaro.Nudge.CoverageBook

/-!
# The algebra of delivered bytes

* `mergePages_merged`: the bytes of a version are the union of what was delivered of it,
  and the entry is complete exactly if every byte was.
* `mergePages_order`: neither order nor grouping nor repetition matter.
* `mergePages_refused`: which entry a merge refuses, and why.
* `mergedRanges`: the same for lists of ranges.
-/

namespace Barbaro

open Ranges (Covers)

/-! ## The union -/

/-- No entry is about another version of the text. -/
def OneVersion (es : List NudgeReadCoverage) (v : CoverageVersion) : Prop :=
  ∀ e ∈ es, coverageKey e = v.key → coverageVersion e = v

theorem oneVersion_single {es ds : List NudgeReadCoverage} {v : CoverageVersion}
    (h : OneVersion (es ++ ds) v) : Versioned.Single (coverageBook es) (ds.map bytesOf) v.key v := by
  refine ⟨fun w s hs => ?_, fun i hi hk => ?_⟩
  · obtain ⟨e, he, heq⟩ := Option.map_eq_some_iff.1 hs
    rw [Prod.mk.injEq] at heq
    obtain ⟨hm, hk⟩ := findCoverage_some he
    rw [← heq.1, h e (List.mem_append_left _ hm) hk]
  · obtain ⟨e, he, rfl⟩ := List.mem_map.1 hi
    exact h e (List.mem_append_right _ he) hk

theorem coversByte_append {es ds : List NudgeReadCoverage} {v : CoverageVersion} {b : ℕ} :
    CoversByte (es ++ ds) v b ↔ CoversByte es v b ∨ CoversByte ds v b := by
  simp only [CoversByte, List.mem_append, or_and_right, exists_or]

/-- With one version under the key, an entry for the key is one for the version. -/
theorem touches_iff_key {es : List NudgeReadCoverage} {v : CoverageVersion} (h : OneVersion es v) :
    Touches es v ↔ ∃ e ∈ es, coverageKey e = v.key := by
  constructor
  · rintro ⟨e, he, rfl⟩
    exact ⟨e, he, rfl⟩
  · rintro ⟨e, he, hk⟩
    exact ⟨e, he, h e he hk⟩

theorem OneVersion.of_subset {es fs : List NudgeReadCoverage} {v : CoverageVersion}
    (h : OneVersion fs v) (hsub : es ⊆ fs) : OneVersion es v :=
  fun e he => h e (hsub he)

theorem coverageBook_isSome {es : List NudgeReadCoverage} {key : CoverageKey} :
    (coverageBook es key).isSome ↔ ∃ e ∈ es, coverageKey e = key := by
  rw [coverageBook, Option.isSome_map]
  cases h : findCoverage key es with
  | none =>
    simp only [Option.isSome_none, Bool.false_eq_true, false_iff, not_exists, not_and]
    exact findCoverage_none h
  | some e =>
    simp only [Option.isSome_some, true_iff]
    exact ⟨e, findCoverage_some h⟩

/-- What merging pages into a state gives. -/
structure MergedPages (state : NudgeReadState) (pages : List (List NudgeReadCoverage))
    (state' : NudgeReadState) : Prop where
  /-- The entries have the canonical form that is accepted when the cursor is read. -/
  canonical : CoverageListOk state'.coverage
  bounded : state'.coverage.length ≤ maxReadCoverageRecords
  rest : state' = state.withCoverage state'.coverage
  /-- Bytes of different versions are never joined. -/
  apart : ∀ v b, CoversByte state'.coverage v b → CoversByte (state.coverage ++ pages.flatten) v b
  union : ∀ v, OneVersion (state.coverage ++ pages.flatten) v → ∀ b,
    CoversByte state'.coverage v b ↔ CoversByte (state.coverage ++ pages.flatten) v b
  touches : ∀ v, OneVersion (state.coverage ++ pages.flatten) v →
    (Touches state'.coverage v ↔ Touches (state.coverage ++ pages.flatten) v)
  complete : ∀ e ∈ state'.coverage, OneVersion (state.coverage ++ pages.flatten) (coverageVersion e) →
    (isReadCoverageComplete e = true ↔
      ∀ b < e.totalBytes, CoversByte (state.coverage ++ pages.flatten) (coverageVersion e) b)
  acknowledged : ∀ {E : Host} (t : Turn E),
    (∀ field, field = .record ∨ field = attentionField t →
      OneVersion (state.coverage ++ pages.flatten) (turnVersion t field)) →
    (isReadRecordAcknowledged state' t = true ↔ FullyCovered (state.coverage ++ pages.flatten) t)

/-- Successful merges of pages, as a fold over the entries in them. -/
theorem mergePages_ok {state state' : NudgeReadState} {pages : List (List NudgeReadCoverage)}
    (h : mergePages state pages = .ok state') :
    pages.flatten.foldlM (addCoverage maxReadCoverageRecords) state.coverage = .ok state'.coverage ∧
      state' = state.withCoverage state'.coverage := by
  rw [mergePages_state, Outcome.map_ok] at h
  obtain ⟨es, hes, rfl⟩ := h
  exact ⟨hes, rfl⟩

theorem isReadCoverageComplete_iff {e : NudgeReadCoverage} (h : coverageOk e = true) :
    isReadCoverageComplete e = true ↔ ∀ b < e.totalBytes, Covers e.ranges b := by
  rw [isReadCoverageComplete, beq_iff_eq]
  constructor
  · intro hr b hb
    rw [hr]
    exact ⟨⟨0, e.totalBytes⟩, by simp, Nat.zero_le b, hb⟩
  · exact (coverageOk_ranges h).complete

/-- **The entries are the canonical form of the union of what was delivered.** -/
theorem mergePages_merged {state state' : NudgeReadState} {pages : List (List NudgeReadCoverage)}
    (hok : CoverageListOk state.coverage) (hlen : state.coverage.length ≤ maxReadCoverageRecords)
    (h : mergePages state pages = .ok state') : MergedPages state pages state' := by
  obtain ⟨hfold, hrest⟩ := mergePages_ok h
  obtain ⟨hok', hbook, hlen'⟩ := book_merged hok hfold
  have hapart : ∀ v b, CoversByte state'.coverage v b →
      CoversByte (state.coverage ++ pages.flatten) v b := by
    intro v b hb
    rw [← coverageBook_holds hok', hbook] at hb
    rw [coversByte_append]
    exact (Versioned.mem_putAll hb).imp (coverageBook_holds hok).1 bytesOf_brings.1
  have hunion : ∀ v, OneVersion (state.coverage ++ pages.flatten) v → ∀ b,
      CoversByte state'.coverage v b ↔ CoversByte (state.coverage ++ pages.flatten) v b := by
    intro v hv b
    rw [← coverageBook_holds hok', hbook, Versioned.putAll_single (oneVersion_single hv),
      coverageBook_holds hok, bytesOf_brings, coversByte_append]
  have htouches : ∀ v, OneVersion (state.coverage ++ pages.flatten) v →
      (Touches state'.coverage v ↔ Touches (state.coverage ++ pages.flatten) v) := by
    intro v hv
    have hv' : OneVersion state'.coverage v := by
      intro e he hk
      have hfind := findCoverage_of_mem hok'.unique he
      have hbk : coverageBook state'.coverage v.key =
          some (coverageVersion e, {b | Covers e.ranges b}) := by
        rw [coverageBook, ← hk, hfind, Option.map_some]
      rw [hbook] at hbk
      exact (oneVersion_single hv).putAll _ _ hbk
    rw [touches_iff_key hv', touches_iff_key hv, ← coverageBook_isSome, hbook,
      Versioned.putAll_isSome, coverageBook_isSome]
    simp only [List.mem_map, List.mem_append, or_and_right, exists_or]
    refine or_congr Iff.rfl ⟨?_, ?_⟩
    · rintro ⟨i, ⟨e, he, rfl⟩, hk⟩
      exact ⟨e, he, hk⟩
    · rintro ⟨e, he, hk⟩
      exact ⟨_, ⟨e, he, rfl⟩, hk⟩
  refine ⟨hok', hlen' hlen, hrest, hapart, hunion, htouches, fun e he hv => ?_, fun t ht => ?_⟩
  · rw [isReadCoverageComplete_iff (hok'.ok e he)]
    refine forall₂_congr fun b _ => ?_
    rw [← hunion _ hv b]
    constructor
    · exact fun hb => ⟨e, he, rfl, hb⟩
    · exact fun hb => ((coversByte_found (v := coverageVersion e) hok'.unique
        (findCoverage_of_mem hok'.unique he) b).1 hb).2
  · rw [acknowledged_iff hok']
    refine exists_congr fun field => and_congr_right fun hfield => ?_
    have hv := ht field hfield
    rw [htouches _ hv]
    simp only [hunion _ hv]

/-- **Neither order nor grouping nor repetition matter**: merges that deliver the same
bytes of a version leave the same entry. -/
theorem mergePages_order {state state₁ state₂ : NudgeReadState}
    {pages₁ pages₂ : List (List NudgeReadCoverage)} (hok : CoverageListOk state.coverage)
    (h₁ : mergePages state pages₁ = .ok state₁) (h₂ : mergePages state pages₂ = .ok state₂)
    {v : CoverageVersion} (hv₁ : OneVersion (state.coverage ++ pages₁.flatten) v)
    (hv₂ : OneVersion (state.coverage ++ pages₂.flatten) v)
    (ht : Touches pages₁.flatten v ↔ Touches pages₂.flatten v)
    (hb : ∀ b, CoversByte pages₁.flatten v b ↔ CoversByte pages₂.flatten v b) :
    findCoverage v.key state₁.coverage = findCoverage v.key state₂.coverage := by
  obtain ⟨hok₁, hbook₁, -⟩ := book_merged hok (mergePages_ok h₁).1
  obtain ⟨hok₂, hbook₂, -⟩ := book_merged hok (mergePages_ok h₂).1
  refine findCoverage_book hok₁ hok₂ ?_
  have hkey : ∀ {ds : List NudgeReadCoverage}, OneVersion (state.coverage ++ ds) v →
      ((∃ i ∈ ds.map bytesOf, i.key = v.key) ↔ Touches ds v) := by
    intro ds hds
    rw [touches_iff_key (hds.of_subset (List.subset_append_right _ _))]
    simp only [List.mem_map]
    constructor
    · rintro ⟨i, ⟨e, he, rfl⟩, hk⟩
      exact ⟨e, he, hk⟩
    · rintro ⟨e, he, hk⟩
      exact ⟨_, ⟨e, he, rfl⟩, hk⟩
  rw [hbook₁, hbook₂]
  refine Versioned.putAll_congr (oneVersion_single hv₁) (oneVersion_single hv₂) (fun b => ?_) ?_
  · rw [bytesOf_brings, bytesOf_brings, hb]
  · rw [hkey hv₁, hkey hv₂, ht]

/-- **Which entry of the pages is refused**, and why. -/
theorem mergePages_refused {state : NudgeReadState} {pages : List (List NudgeReadCoverage)}
    (hok : CoverageListOk state.coverage) (hlen : state.coverage.length ≤ maxReadCoverageRecords)
    (f : Failure) : mergePages state pages = .error f ↔ ∃ ds e ds' state₁,
      pages.flatten = ds ++ e :: ds' ∧ mergePages state [ds] = .ok state₁ ∧
        Refused maxReadCoverageRecords state₁.coverage e f := by
  have herr : mergePages state pages = .error f ↔
      pages.flatten.foldlM (addCoverage maxReadCoverageRecords) state.coverage = .error f := by
    rw [mergePages_state]
    cases pages.flatten.foldlM (addCoverage maxReadCoverageRecords) state.coverage with
    | error g => simp [Except.map]
    | ok es => simp [Except.map]
  rw [herr, foldlM_error hok hlen]
  constructor
  · rintro ⟨ds, e, ds', es, hd, hes, hr⟩
    refine ⟨ds, e, ds', state.withCoverage es, hd, ?_, hr⟩
    rw [mergePages_state, List.flatten_singleton, hes]
    rfl
  · rintro ⟨ds, e, ds', state₁, hd, hs, hr⟩
    have hs' := (mergePages_ok hs).1
    rw [List.flatten_singleton] at hs'
    exact ⟨ds, e, ds', state₁.coverage, hd, hs', hr⟩

/-! ## Lists of ranges -/

/-- What merging a list of ranges of a text of `n` bytes gives. -/
structure MergedRanges (n : ℕ) (rs : List NudgeReadRange) : Prop where
  /-- Neither the order nor the number of the ranges matters. -/
  order : ∀ ss, (∀ r, r ∈ ss ↔ r ∈ rs) → mergeReadRanges ss = mergeReadRanges rs
  /-- Ranges may be merged in steps. -/
  steps : ∀ ms ss, mergeReadRanges rs = .ok ms → mergeReadRanges (ms ++ ss) = mergeReadRanges (rs ++ ss)
  union : ∀ ms, mergeReadRanges rs = .ok ms → ∀ b, Covers ms b ↔ Covers rs b
  /-- Ranges of the text, empty only if it is, merge to the form that is accepted. -/
  canonical : ∀ ms, mergeReadRanges rs = .ok ms → rs ≠ [] →
    (∀ r ∈ rs, r.stop ≤ n ∧ (r.start ≠ r.stop ∨ n = 0)) → RangesOk n ms
  /-- Nonempty ranges are refused exactly if no list of ranges that fits has their positions. -/
  refused : (∀ r ∈ rs, r.start < r.stop) →
    ((∃ f, mergeReadRanges rs = .error f) ↔ TooScattered (Covers rs))

theorem mergeReadRanges_congr {rs ss : List NudgeReadRange} (h : ∀ r, r ∈ ss ↔ r ∈ rs) :
    mergeReadRanges ss = mergeReadRanges rs := by
  rw [mergeReadRanges, mergeReadRanges]
  have hany : ss.any (fun r => decide (r.stop < r.start)) = rs.any (fun r => decide (r.stop < r.start)) := by
    rw [Bool.eq_iff_iff]
    simp only [List.any_eq_true, h]
  rw [hany]
  by_cases hinv : rs.any (fun r => decide (r.stop < r.start)) = true
  · rw [if_pos hinv, if_pos hinv]
  · have hle : ∀ r ∈ rs, r.start ≤ r.stop := by
      simpa only [List.any_eq_true, decide_eq_true_eq, not_exists, not_and, not_lt] using hinv
    rw [if_neg hinv, if_neg hinv, Ranges.merge_congr hle (fun r => (h r).symm)]

theorem mergeReadRanges_steps {rs ms ss : List NudgeReadRange} (h : mergeReadRanges rs = .ok ms) :
    mergeReadRanges (ms ++ ss) = mergeReadRanges (rs ++ ss) := by
  obtain ⟨rfl, hle, -⟩ := mergeReadRanges_ok h
  have hmle := (Ranges.merge_separated hle).1
  rw [mergeReadRanges, mergeReadRanges, List.any_append, List.any_append]
  have hnone : ∀ {ts : List NudgeReadRange}, (∀ r ∈ ts, r.start ≤ r.stop) →
      ts.any (fun r => decide (r.stop < r.start)) = false := by
    intro ts ht
    simpa only [List.any_eq_false, decide_eq_true_eq, not_lt] using ht
  rw [hnone hle, hnone hmle]
  by_cases hinv : ss.any (fun r => decide (r.stop < r.start)) = true
  · rw [hinv]
    rfl
  · have hsle : ∀ r ∈ ss, r.start ≤ r.stop := by
      simpa only [List.any_eq_true, decide_eq_true_eq, not_exists, not_and, not_lt] using hinv
    rw [Ranges.merge_merge_append hle hsle]

theorem mergeReadRanges_refused {rs : List NudgeReadRange} (hi : ∀ r ∈ rs, r.start < r.stop) :
    (∃ f, mergeReadRanges rs = .error f) ↔ TooScattered (Covers rs) := by
  have hle : ∀ r ∈ rs, r.start ≤ r.stop := fun r hr => le_of_lt (hi r hr)
  have hinv : ¬ rs.any (fun r => decide (r.stop < r.start)) = true := by
    simpa only [List.any_eq_true, decide_eq_true_eq, not_exists, not_and, not_lt] using hle
  have hcov := Ranges.covers_merge hle
  rw [mergeReadRanges, if_neg hinv]
  by_cases hlong : (Ranges.merge rs).length > maxReadCoverageRanges
  · rw [if_pos hlong]
    refine ⟨fun _ ts hts => ?_, fun _ => ⟨_, rfl⟩⟩
    have hshort := (Ranges.merge_separated hle).length_le (Ranges.merge_inhabited hi)
      (fun b => (hcov b).trans (hts b).symm)
    omega
  · rw [if_neg hlong]
    constructor
    · rintro ⟨f, h⟩
      cases h
    · intro h
      exact absurd (h _ hcov) hlong

theorem mergedRanges (n : ℕ) (rs : List NudgeReadRange) : MergedRanges n rs := by
  refine ⟨fun ss h => mergeReadRanges_congr h, fun ms ss h => mergeReadRanges_steps h,
    fun ms h b => ?_, fun ms h hne hin => ?_, mergeReadRanges_refused⟩
  · obtain ⟨rfl, hle, -⟩ := mergeReadRanges_ok h
    exact Ranges.covers_merge hle b
  · obtain ⟨rfl, hle, hlen⟩ := mergeReadRanges_ok h
    refine ⟨Ranges.merge_separated hle, Ranges.merge_within (fun r hr => (hin r hr).1), fun hn => ?_,
      Ranges.merge_ne_nil hne, hlen⟩
    refine Ranges.merge_inhabited (fun r hr => ?_)
    have h1 := hle r hr
    have h2 := (hin r hr).2
    omega

/-- **Delivered bytes form a union.** Lists of ranges merge to the canonical form of the
set of their positions. The entries after any pages of deliveries are, for every version
that is the only one of its text, the canonical form of all its bytes, complete exactly
if each was delivered. A page over the capacity is refused as a whole. -/
theorem delivered_union (n : ℕ) (rs : List NudgeReadRange) (state : NudgeReadState)
    (hok : CoverageListOk state.coverage) (hlen : state.coverage.length ≤ maxReadCoverageRecords)
    (pages : List (List NudgeReadCoverage)) :
    MergedRanges n rs ∧
      (∀ state', mergePages state pages = .ok state' → MergedPages state pages state') ∧
      (∀ pages', pages'.flatten = pages.flatten → mergePages state pages' = mergePages state pages) ∧
      (∀ pages' state₁ state₂ v, mergePages state pages = .ok state₁ →
        mergePages state pages' = .ok state₂ → OneVersion (state.coverage ++ pages.flatten) v →
        OneVersion (state.coverage ++ pages'.flatten) v →
        (Touches pages.flatten v ↔ Touches pages'.flatten v) →
        (∀ b, CoversByte pages.flatten v b ↔ CoversByte pages'.flatten v b) →
        findCoverage v.key state₁.coverage = findCoverage v.key state₂.coverage) ∧
      (∀ f, mergePages state pages = .error f ↔ ∃ ds e ds' state₁,
        pages.flatten = ds ++ e :: ds' ∧ mergePages state [ds] = .ok state₁ ∧
          Refused maxReadCoverageRecords state₁.coverage e f) ∧
      ∃ kept : List (List NudgeReadCoverage), kept.Sublist pages ∧
        mergePages state kept = .ok (pages.foldl keepPage state) := by
  refine ⟨mergedRanges n rs, fun state' h => mergePages_merged hok hlen h,
    fun pages' h => mergePages_flatten state h, ?_, mergePages_refused hok hlen,
    keepPages_kept state pages⟩
  intro pages' state₁ state₂ v h₁ h₂ hv₁ hv₂ ht hb
  exact mergePages_order hok h₁ h₂ hv₁ hv₂ ht hb

/-- A delivered part of a text of seven bytes. -/
def samplePart (start stop : ℕ) : NudgeReadCoverage where
  provider := js "codex"
  sessionId := js "ses_" ++ List.replicate 32 49
  turnId := js "turn_" ++ List.replicate 32 50
  recordSha256 := List.replicate 64 51
  field := .response
  fieldSha256 := List.replicate 64 52
  totalBytes := 7
  ranges := [⟨start, stop⟩]

/-- The two parts of a text, the first of them twice and out of order. -/
theorem delivered_union_sample :
    ∃ state', mergePages emptyNudgeReadState [[samplePart 3 7], [samplePart 0 3, samplePart 3 7]] = .ok state' ∧
      state'.coverage = [samplePart 0 7] ∧
      MergedPages emptyNudgeReadState [[samplePart 3 7], [samplePart 0 3, samplePart 3 7]] state' := by
  have hmerge : mergePages emptyNudgeReadState
      [[samplePart 3 7], [samplePart 0 3, samplePart 3 7]] =
        .ok (emptyNudgeReadState.withCoverage [samplePart 0 7]) := by
    rfl
  have hok : CoverageListOk emptyNudgeReadState.coverage := ⟨by simp [emptyNudgeReadState],
    by simp [emptyNudgeReadState]⟩
  exact ⟨_, hmerge, rfl, (delivered_union 7 [] emptyNudgeReadState hok (Nat.zero_le _) _).2.1 _ hmerge⟩

end Barbaro
