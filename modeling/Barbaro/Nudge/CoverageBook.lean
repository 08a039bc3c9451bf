import Barbaro.Lib.Versioned
import Barbaro.Nudge.Delivered

/-!
# The book of delivered bytes

What a session has delivered is a book of sets of bytes, one for each text of a record
and for its last version only. The entries a cursor stores are the canonical lists of
ranges of these sets.

* `book_merged`: merging deliveries puts their bytes into the book.
* `findCoverage_book`: the book determines the entries.
* `addCoverage_error`: when an entry is refused, and with which failure.
* `mergePages_flatten`: pages may be merged one by one or together, with one outcome.
-/

namespace Barbaro

open Ranges (Covers)

/-! ## One entry at a time -/

/-- What one delivered entry does to the entries held. -/
def addCoverage (maximumRecords : ℕ) (es : List NudgeReadCoverage) (raw : NudgeReadCoverage) :
    Except Failure (List NudgeReadCoverage) := do
  let entry ← checkCoverage raw
  let next ← nextCoverage (findCoverage (coverageKey entry) es) entry
  if findCoverage (coverageKey entry) es = some next then return es
  else if (setCoverage next es).length > maximumRecords then
    .error (.coverageCapacity "too many delivered records with unread gaps")
  else return setCoverage next es

/-- The flag of the loop aside, the loop adds one entry after the other. -/
theorem mergeEntries_foldlM (max : ℕ) (ds es : List NudgeReadCoverage) (c : Bool) :
    (mergeEntries max ds es c).map Prod.fst = ds.foldlM (addCoverage max) es := by
  induction ds generalizing es c with
  | nil => rfl
  | cons raw ds ih =>
    rw [mergeEntries, List.foldlM_cons, addCoverage]
    cases checkCoverage raw with
    | error f => rfl
    | ok entry =>
      simp only [Outcome.ok_bind]
      cases nextCoverage (findCoverage (coverageKey entry) es) entry with
      | error f => rfl
      | ok next =>
        simp only [Outcome.ok_bind]
        split
        · exact ih es c
        · split
          · rfl
          · exact ih _ true

theorem mergeEntries_unchanged {max : ℕ} {ds es es' : List NudgeReadCoverage} {c : Bool}
    (h : mergeEntries max ds es c = .ok (es', false)) : es' = es := by
  induction ds generalizing es c with
  | nil =>
    simp only [mergeEntries, Except.ok.injEq, Prod.mk.injEq] at h
    exact h.1.symm
  | cons raw ds ih =>
    simp only [mergeEntries, Outcome.bind_ok] at h
    obtain ⟨entry, -, next, -, h⟩ := h
    split at h
    · exact ih h
    · -- once an entry has changed the flag stays
      simp only [Outcome.guard_ok] at h
      have hflag : ∀ (ds es : List NudgeReadCoverage), mergeEntries max ds es true ≠ .ok (es', false) := by
        intro ds
        induction ds with
        | nil => simp [mergeEntries]
        | cons raw ds ih =>
          intro es h
          simp only [mergeEntries, Outcome.bind_ok] at h
          obtain ⟨entry, -, next, -, h⟩ := h
          split at h
          · exact ih es h
          · simp only [Outcome.guard_ok] at h
            exact ih _ h.2
      exact absurd h.2 (hflag ds _)

/-- The state with other entries. -/
def NudgeReadState.withCoverage (s : NudgeReadState) (es : List NudgeReadCoverage) : NudgeReadState :=
  { s with coverage := es }

/-- The state that `mergeReadCoverage` returns. -/
theorem mergeReadCoverage_state (state : NudgeReadState) (delivered : List NudgeReadCoverage) :
    (mergeReadCoverage state delivered).map Prod.fst =
      (delivered.foldlM (addCoverage maxReadCoverageRecords) state.coverage).map state.withCoverage := by
  rw [mergeReadCoverage, mergeCoverage, ← mergeEntries_foldlM _ _ _ false]
  cases h : mergeEntries maxReadCoverageRecords delivered state.coverage false with
  | error f => rfl
  | ok p =>
    obtain ⟨es, changed⟩ := p
    cases changed with
    | true => rfl
    | false =>
      have := mergeEntries_unchanged h
      subst this
      rfl

/-! ## Pages -/

/-- Deliveries merged one after the other. -/
def mergePages (state : NudgeReadState) (pages : List (List NudgeReadCoverage)) :
    Except Failure NudgeReadState :=
  pages.foldlM (fun s page => (mergeReadCoverage s page).map Prod.fst) state

theorem mergePages_state (state : NudgeReadState) (pages : List (List NudgeReadCoverage)) :
    mergePages state pages =
      (pages.flatten.foldlM (addCoverage maxReadCoverageRecords) state.coverage).map
        state.withCoverage := by
  induction pages generalizing state with
  | nil => rfl
  | cons page pages ih =>
    rw [mergePages, List.foldlM_cons, mergeReadCoverage_state, List.flatten_cons, List.foldlM_append]
    cases page.foldlM (addCoverage maxReadCoverageRecords) state.coverage with
    | error f => rfl
    | ok es => exact ih (state.withCoverage es)

/-- **Pages may be merged one by one or together**: the outcome depends only on the
entries in them, also when it is a failure. -/
theorem mergePages_flatten (state : NudgeReadState) {pages pages' : List (List NudgeReadCoverage)}
    (h : pages'.flatten = pages.flatten) : mergePages state pages' = mergePages state pages := by
  rw [mergePages_state, mergePages_state, h]

/-- A session that goes on with what it had when a page is refused. -/
def keepPage (state : NudgeReadState) (page : List NudgeReadCoverage) : NudgeReadState :=
  match mergeReadCoverage state page with
  | .ok (s, _) => s
  | .error _ => state

/-- **A page counts in full or not at all.** -/
theorem keepPages_kept (state : NudgeReadState) (pages : List (List NudgeReadCoverage)) :
    ∃ kept : List (List NudgeReadCoverage), kept.Sublist pages ∧
      mergePages state kept = .ok (pages.foldl keepPage state) := by
  induction pages generalizing state with
  | nil => exact ⟨[], .slnil, rfl⟩
  | cons page pages ih =>
    obtain ⟨kept, hsub, hkept⟩ := ih (keepPage state page)
    rw [List.foldl_cons]
    cases h : mergeReadCoverage state page with
    | error f =>
      have hstate : keepPage state page = state := by rw [keepPage, h]
      rw [hstate] at hkept ⊢
      exact ⟨kept, hsub.cons page, hkept⟩
    | ok p =>
      have hstate : keepPage state page = p.1 := by rw [keepPage, h]
      refine ⟨page :: kept, hsub.cons_cons page, ?_⟩
      rw [mergePages, List.foldlM_cons, h]
      rw [hstate] at hkept ⊢
      exact hkept

/-! ## The book of delivered bytes -/

abbrev CoverageBook := Versioned.Book CoverageKey CoverageVersion ℕ

/-- A delivered entry, as the bytes it brings. -/
def bytesOf (e : NudgeReadCoverage) : Versioned.Item CoverageKey CoverageVersion ℕ where
  key := coverageKey e
  version := coverageVersion e
  elems := {b | Covers e.ranges b}

/-- What the entries of a cursor hold. -/
def coverageBook (es : List NudgeReadCoverage) : CoverageBook := fun key =>
  (findCoverage key es).map (fun e => (coverageVersion e, {b | Covers e.ranges b}))

theorem coverageBook_holds {es : List NudgeReadCoverage} (hok : CoverageListOk es)
    {v : CoverageVersion} {b : ℕ} :
    Versioned.Holds (coverageBook es) v.key v b ↔ CoversByte es v b := by
  simp only [Versioned.Holds, coverageBook, Option.map_eq_some_iff, Prod.mk.injEq, CoversByte]
  constructor
  · rintro ⟨s, ⟨e, he, hv, rfl⟩, hb⟩
    exact ⟨e, (findCoverage_some he).1, hv, hb⟩
  · rintro ⟨e, he, rfl, hb⟩
    exact ⟨_, ⟨e, findCoverage_of_mem hok.unique he, rfl, rfl⟩, hb⟩

theorem bytesOf_brings {es : List NudgeReadCoverage} {v : CoverageVersion} {b : ℕ} :
    Versioned.Brings (es.map bytesOf) v.key v b ↔ CoversByte es v b := by
  simp only [Versioned.Brings, List.mem_map, CoversByte]
  constructor
  · rintro ⟨i, ⟨e, he, rfl⟩, -, hv, hb⟩
    exact ⟨e, he, hv, hb⟩
  · rintro ⟨e, he, rfl, hb⟩
    exact ⟨_, ⟨e, he, rfl⟩, rfl, rfl, hb⟩

theorem findCoverage_set {e : NudgeReadCoverage} {es : List NudgeReadCoverage} {key : CoverageKey} :
    findCoverage key (setCoverage e es) =
      if coverageKey e = key then some e else findCoverage key es := by
  induction es with
  | nil => rfl
  | cons d es ih =>
    rw [setCoverage]
    by_cases hd : coverageKey d = coverageKey e
    · rw [if_pos hd, findCoverage, findCoverage]
      by_cases hk : coverageKey e = key
      · rw [if_pos hk, if_pos hk]
      · rw [if_neg hk, if_neg hk, if_neg (by rw [hd]; exact hk)]
    · rw [if_neg hd, findCoverage, ih, findCoverage]
      by_cases hk : coverageKey d = key
      · rw [if_pos hk, if_pos hk, if_neg (fun h => hd (by rw [hk, h]))]
      · rw [if_neg hk, if_neg hk]

/-- The entry that takes the place of `prior` covers the bytes of both, for one version. -/
theorem nextCoverage_bytes {prior : Option NudgeReadCoverage} {entry next : NudgeReadCoverage}
    (hk : ∀ p, prior = some p → coverageKey p = coverageKey entry)
    (h : nextCoverage prior entry = .ok next) :
    {b | Covers next.ranges b} = Versioned.joined
      (prior.map (fun e => (coverageVersion e, {b | Covers e.ranges b}))) (bytesOf entry) := by
  cases prior with
  | none =>
    simp only [nextCoverage, Outcome.pure_ok] at h
    rw [h]
    rfl
  | some p =>
    have hsame : sameVersion p entry = true ↔ coverageVersion p = (bytesOf entry).version :=
      sameVersion_iff (hk p rfl)
    rw [nextCoverage] at h
    rw [Option.map_some, Versioned.joined]
    split at h
    · next hv =>
      simp only [Outcome.bind_ok, Outcome.pure_ok] at h
      obtain ⟨ms, hms, rfl⟩ := h
      obtain ⟨rfl, hle, -⟩ := mergeReadRanges_ok hms
      rw [if_pos (hsame.1 hv)]
      ext b
      simp only [Set.mem_ofPred_eq, Ranges.covers_merge hle, Ranges.covers_append, Set.mem_union,
        bytesOf]
    · next hv =>
      simp only [Outcome.pure_ok] at h
      subst h
      rw [if_neg (fun h => hv (hsame.2 h))]
      rfl

/-- **What one entry does to the book.** -/
theorem addCoverage_ok {max : ℕ} {es es' : List NudgeReadCoverage} {e : NudgeReadCoverage}
    (hok : CoverageListOk es) (h : addCoverage max es e = .ok es') :
    CoverageListOk es' ∧ coverageBook es' = Versioned.put (coverageBook es) (bytesOf e) ∧
      (es.length ≤ max → es'.length ≤ max) := by
  simp only [addCoverage, Outcome.bind_ok] at h
  obtain ⟨entry, hcheck, next, hnext, h⟩ := h
  obtain ⟨he, rfl⟩ := checkCoverage_ok.1 hcheck
  have hprior : ∀ p, findCoverage (coverageKey e) es = some p →
      coverageOk p = true ∧ coverageKey p = coverageKey e := fun p hp =>
    ⟨hok.ok p (findCoverage_some hp).1, (findCoverage_some hp).2⟩
  obtain ⟨hnok, hnver, -, -⟩ := nextCoverage_ok he hprior hnext
  have hnkey := version_key hnver
  have hbytes := nextCoverage_bytes (fun p hp => (hprior p hp).2) hnext
  -- the book has the next entry under its key in both cases
  have hput : ∀ fs : List NudgeReadCoverage, findCoverage (coverageKey e) fs = some next →
      (∀ key, coverageKey e ≠ key → findCoverage key fs = findCoverage key es) →
      coverageBook fs = Versioned.put (coverageBook es) (bytesOf e) := by
    intro fs hself hother
    funext key
    by_cases hkey : coverageKey e = key
    · subst hkey
      have hp := Versioned.put_self (coverageBook es) (bytesOf e)
      change _ = Versioned.put (coverageBook es) (bytesOf e) (bytesOf e).key
      rw [hp]
      simp only [coverageBook, bytesOf, hself, Option.map_some, hnver, hbytes]
    · rw [Versioned.put_other (i := bytesOf e) hkey]
      simp only [coverageBook, hother key hkey]
  split at h
  · next hsame =>
    simp only [Outcome.pure_ok] at h
    subst h
    exact ⟨hok, hput es hsame (fun _ _ => rfl), id⟩
  · simp only [Outcome.guard_ok, Outcome.pure_ok, not_lt] at h
    obtain ⟨hlen, rfl⟩ := h
    refine ⟨⟨fun d hd => ?_, setCoverage_nodup hok.unique⟩, hput _ ?_ ?_, fun _ => hlen⟩
    · rcases mem_setCoverage hd with rfl | hd
      · exact hnok
      · exact hok.ok d hd
    · rw [findCoverage_set, if_pos hnkey]
    · intro key hkey
      rw [findCoverage_set, if_neg (by rw [hnkey]; exact hkey)]

/-- **Merging deliveries puts their bytes into the book.** -/
theorem book_merged {max : ℕ} {ds es es' : List NudgeReadCoverage} (hok : CoverageListOk es)
    (h : ds.foldlM (addCoverage max) es = .ok es') :
    CoverageListOk es' ∧ coverageBook es' = Versioned.putAll (coverageBook es) (ds.map bytesOf) ∧
      (es.length ≤ max → es'.length ≤ max) := by
  induction ds generalizing es with
  | nil =>
    rw [List.foldlM_nil, Outcome.pure_ok] at h
    subst h
    exact ⟨hok, rfl, id⟩
  | cons d ds ih =>
    rw [List.foldlM_cons, Outcome.bind_ok] at h
    obtain ⟨es₁, h1, h2⟩ := h
    obtain ⟨hok1, hbook1, hlen1⟩ := addCoverage_ok hok h1
    obtain ⟨hok2, hbook2, hlen2⟩ := ih hok1 h2
    refine ⟨hok2, ?_, fun hlen => hlen2 (hlen1 hlen)⟩
    rw [hbook2, hbook1, List.map_cons, Versioned.putAll_cons]

/-- Valid entries of one version with the same bytes are equal. -/
theorem coverage_ext {d e : NudgeReadCoverage} (hd : coverageOk d = true) (he : coverageOk e = true)
    (hv : coverageVersion d = coverageVersion e) (hb : ∀ b, Covers d.ranges b ↔ Covers e.ranges b) :
    d = e := by
  have htotal : d.totalBytes = e.totalBytes := congrArg CoverageVersion.totalBytes hv
  have hdr := htotal ▸ coverageOk_ranges hd
  have her := coverageOk_ranges he
  have hranges : d.ranges = e.ranges := by
    by_cases hn : e.totalBytes = 0
    · rw [hn] at hdr her
      rw [hdr.empty, her.empty]
    · exact Ranges.separated_ext hdr.separated her.separated (hdr.inhabited hn) (her.inhabited hn) hb
  cases d
  cases e
  simp only [coverageVersion, coverageKey, CoverageVersion.mk.injEq, CoverageKey.mk.injEq] at hv
  obtain ⟨⟨h1, h2, h3, h4⟩, h5, h6, h7⟩ := hv
  simp only at hranges
  rw [h1, h2, h3, h4, h5, h6, h7, hranges]

/-- **The book determines the entries**: equal sets of bytes have one canonical list. -/
theorem findCoverage_book {es fs : List NudgeReadCoverage} (hes : CoverageListOk es)
    (hfs : CoverageListOk fs) {key : CoverageKey} (h : coverageBook es key = coverageBook fs key) :
    findCoverage key es = findCoverage key fs := by
  unfold coverageBook at h
  cases h1 : findCoverage key es with
  | none =>
    rw [h1, Option.map_none] at h
    exact (Option.map_eq_none_iff.1 h.symm).symm
  | some d =>
    rw [h1, Option.map_some] at h
    obtain ⟨e, he, heq⟩ := Option.map_eq_some_iff.1 h.symm
    rw [Prod.mk.injEq] at heq
    rw [he, coverage_ext (hes.ok d (findCoverage_some h1).1) (hfs.ok e (findCoverage_some he).1)
      heq.1.symm (fun b => Set.ext_iff.1 heq.2.symm b)]

/-! ## Refusals -/

/-- Every list of ranges for these bytes is longer than an entry may be. -/
def TooScattered (bytes : ℕ → Prop) : Prop :=
  ∀ rs : List NudgeReadRange, (∀ b, Covers rs b ↔ bytes b) → maxReadCoverageRanges < rs.length

/-- Why the entry `e` cannot be added to the entries `es`. -/
inductive Refused (maximumRecords : ℕ) (es : List NudgeReadCoverage) (e : NudgeReadCoverage) :
    Failure → Prop
  | invalid (h : coverageOk e = false) :
      Refused maximumRecords es e (.typeError "invalid delivered record coverage binding")
  | ranges (hok : coverageOk e = true)
      (h : TooScattered (fun b => CoversByte es (coverageVersion e) b ∨ Covers e.ranges b)) :
      Refused maximumRecords es e (.coverageCapacity "too many incomplete delivered byte ranges")
  | records (hok : coverageOk e = true) (hnew : ∀ d ∈ es, coverageKey d ≠ coverageKey e)
      (h : es.length = maximumRecords) :
      Refused maximumRecords es e (.coverageCapacity "too many delivered records with unread gaps")

theorem setCoverage_length (e : NudgeReadCoverage) (es : List NudgeReadCoverage) :
    (setCoverage e es).length =
      if coverageKey e ∈ es.map coverageKey then es.length else es.length + 1 := by
  have h := congrArg List.length (setCoverage_keys e es)
  rw [List.length_map] at h
  rw [h]
  split <;> simp

/-- The bytes of two valid lists of ranges of one text are too scattered exactly if the
merge of the lists is too long. -/
theorem tooScattered_iff {n : ℕ} {rs ss : List NudgeReadRange} (hr : RangesOk n rs)
    (hs : RangesOk n ss) : TooScattered (fun b => Covers rs b ∨ Covers ss b) ↔
      maxReadCoverageRanges < (Ranges.merge (rs ++ ss)).length := by
  have hle : ∀ r ∈ rs ++ ss, r.start ≤ r.stop := fun r hm =>
    (List.mem_append.1 hm).elim (hr.separated.1 r) (hs.separated.1 r)
  have hcov : ∀ b, Covers (Ranges.merge (rs ++ ss)) b ↔ Covers rs b ∨ Covers ss b := fun b => by
    rw [Ranges.covers_merge hle, Ranges.covers_append]
  constructor
  · intro h
    exact h _ hcov
  · intro h ts hts
    by_cases hn : n = 0
    · subst hn
      rw [hr.empty, hs.empty] at h
      exact absurd h (by decide)
    · have hi : Ranges.Inhabited (rs ++ ss) := fun r hm =>
        (List.mem_append.1 hm).elim (hr.inhabited hn r) (hs.inhabited hn r)
      have hshort := (Ranges.merge_separated hle).length_le (Ranges.merge_inhabited hi)
        (fun b => (hcov b).trans (hts b).symm)
      omega

/-- The bytes held of a version, when the entry under its key is known. -/
theorem coversByte_found {es : List NudgeReadCoverage} (hu : (es.map coverageKey).Nodup)
    {p : NudgeReadCoverage} {v : CoverageVersion} (hp : findCoverage v.key es = some p) (b : ℕ) :
    CoversByte es v b ↔ coverageVersion p = v ∧ Covers p.ranges b := by
  constructor
  · rintro ⟨d, hd, rfl, hb⟩
    have hfind := findCoverage_of_mem hu hd
    change findCoverage (coverageKey d) es = some p at hp
    rw [hp, Option.some.injEq] at hfind
    subst hfind
    exact ⟨rfl, hb⟩
  · rintro ⟨hv, hb⟩
    exact ⟨p, (findCoverage_some hp).1, hv, hb⟩

/-- Under a new key only the number of the entries can refuse one. -/
theorem refused_fresh {max : ℕ} {es : List NudgeReadCoverage} {e : NudgeReadCoverage}
    (he : coverageOk e = true) (hfind : findCoverage (coverageKey e) es = none) (f : Failure) :
    Refused max es e f ↔ es.length = max ∧
      f = .coverageCapacity "too many delivered records with unread gaps" := by
  have hnew := findCoverage_none hfind
  constructor
  · intro h
    cases h with
    | invalid h => exact absurd he (by simp [h])
    | ranges _ h =>
      have hb := (coverageOk_ranges he).bounded
      have := h e.ranges (fun b => ⟨.inr, fun hb => hb.elim
        (fun ⟨d, hd, hv, _⟩ => absurd (version_key hv) (hnew d hd)) id⟩)
      omega
    | records _ _ h => exact ⟨h, rfl⟩
  · rintro ⟨h, rfl⟩
    exact .records he hnew h

/-- Under a key that is held only the number of the ranges can. -/
theorem refused_held {max : ℕ} {es : List NudgeReadCoverage} (hok : CoverageListOk es)
    {e p : NudgeReadCoverage} (he : coverageOk e = true)
    (hfind : findCoverage (coverageKey e) es = some p) (f : Failure) :
    Refused max es e f ↔ coverageVersion p = coverageVersion e ∧
      maxReadCoverageRanges < (Ranges.merge (p.ranges ++ e.ranges)).length ∧
      f = .coverageCapacity "too many incomplete delivered byte ranges" := by
  obtain ⟨hpm, hpk⟩ := findCoverage_some hfind
  have her := coverageOk_ranges he
  have hbytes : ∀ b, CoversByte es (coverageVersion e) b ↔
      coverageVersion p = coverageVersion e ∧ Covers p.ranges b :=
    coversByte_found (v := coverageVersion e) hok.unique hfind
  have hsame (hver : coverageVersion p = coverageVersion e) :
      TooScattered (fun b => CoversByte es (coverageVersion e) b ∨ Covers e.ranges b) ↔
        maxReadCoverageRanges < (Ranges.merge (p.ranges ++ e.ranges)).length := by
    have htotal : p.totalBytes = e.totalBytes := congrArg CoverageVersion.totalBytes hver
    have hpr : RangesOk e.totalBytes p.ranges := htotal ▸ coverageOk_ranges (hok.ok p hpm)
    rw [← tooScattered_iff hpr her]
    unfold TooScattered
    simp only [hbytes, hver, true_and]
  constructor
  · intro h
    cases h with
    | invalid h => exact absurd he (by simp [h])
    | ranges _ h =>
      by_cases hver : coverageVersion p = coverageVersion e
      · exact ⟨hver, (hsame hver).1 h, rfl⟩
      · have hb := her.bounded
        have := h e.ranges (fun b => by simp [hbytes, hver])
        omega
    | records _ h => exact absurd hpk (h p hpm)
  · rintro ⟨hver, hlong, rfl⟩
    exact .ranges he ((hsame hver).2 hlong)

/-- The entry that takes the place of `p` cannot be made only if its ranges are too many. -/
theorem nextCoverage_error {p e : NudgeReadCoverage} (hp : coverageOk p = true)
    (he : coverageOk e = true) (hk : coverageKey p = coverageKey e) (f : Failure) :
    nextCoverage (some p) e = .error f ↔ coverageVersion p = coverageVersion e ∧
      maxReadCoverageRanges < (Ranges.merge (p.ranges ++ e.ranges)).length ∧
      f = .coverageCapacity "too many incomplete delivered byte ranges" := by
  have hle : ¬ ((p.ranges ++ e.ranges).any (fun r => decide (r.stop < r.start)) = true) := by
    simp only [List.any_eq_true, decide_eq_true_eq, not_exists, not_and, not_lt]
    intro r hm
    exact (List.mem_append.1 hm).elim ((coverageOk_ranges hp).separated.1 r)
      ((coverageOk_ranges he).separated.1 r)
  rw [nextCoverage, ← sameVersion_iff hk]
  by_cases hv : sameVersion p e = true
  · rw [if_pos hv, mergeReadRanges, if_neg hle]
    by_cases hlong : (Ranges.merge (p.ranges ++ e.ranges)).length > maxReadCoverageRanges
    · rw [if_pos hlong]
      constructor
      · intro h
        exact ⟨hv, hlong, (Except.error.inj h).symm⟩
      · rintro ⟨-, -, rfl⟩
        rfl
    · rw [if_neg hlong, Outcome.ok_bind]
      constructor
      · intro h
        cases h
      · rintro ⟨-, h, -⟩
        exact absurd h hlong
  · rw [if_neg hv]
    constructor
    · intro h
      cases h
    · rintro ⟨h, -⟩
      exact absurd h hv

/-- **When an entry is refused, and with which failure.** -/
theorem addCoverage_error {max : ℕ} {es : List NudgeReadCoverage} {e : NudgeReadCoverage}
    (hok : CoverageListOk es) (hlen : es.length ≤ max) (f : Failure) :
    addCoverage max es e = .error f ↔ Refused max es e f := by
  unfold addCoverage
  by_cases he : coverageOk e = true
  · rw [checkCoverage_ok.2 ⟨he, rfl⟩, Outcome.ok_bind]
    cases hfind : findCoverage (coverageKey e) es with
    | none =>
      have hfresh : coverageKey e ∉ es.map coverageKey := by
        intro hm
        obtain ⟨d, hd, hk⟩ := List.mem_map.1 hm
        exact findCoverage_none hfind d hd hk
      rw [refused_fresh he hfind]
      simp only [nextCoverage, pure_bind, reduceCtorEq, if_false, setCoverage_length, hfresh]
      by_cases hfull : es.length + 1 > max
      · rw [if_pos hfull, Except.error.injEq]
        exact ⟨fun h => ⟨by omega, h.symm⟩, fun h => h.2.symm⟩
      · rw [if_neg hfull]
        constructor
        · intro h
          cases h
        · rintro ⟨h, -⟩
          omega
    | some p =>
      obtain ⟨hpm, hpk⟩ := findCoverage_some hfind
      rw [refused_held hok he hfind, ← nextCoverage_error (hok.ok p hpm) he hpk]
      cases hnext : nextCoverage (some p) e with
      | error g =>
        constructor
        · intro h
          exact congrArg Except.error (Except.error.inj h)
        · intro h
          exact congrArg Except.error (Except.error.inj h)
      | ok next =>
        -- the number of the entries stays
        have hkey : coverageKey next = coverageKey e := by
          refine version_key (nextCoverage_ok he ?_ hnext).2.1
          rintro q ⟨⟩
          exact ⟨hok.ok p hpm, hpk⟩
        have hfull : ¬ (setCoverage next es).length > max := by
          rw [setCoverage_length, hkey, if_pos (List.mem_map.2 ⟨p, hpm, hpk⟩)]
          omega
        rw [Outcome.ok_bind, if_neg hfull]
        split <;> simp [pure, Except.pure]
  · have hfalse : coverageOk e = false := by simpa using he
    rw [checkCoverage, if_neg he]
    constructor
    · intro h
      rw [← Except.error.inj h]
      exact .invalid hfalse
    · intro h
      cases h with
      | invalid => rfl
      | ranges h => exact absurd h he
      | records h => exact absurd h he

/-- **Which entry of a fold is refused**: the first that cannot be added to what the
entries before it gave. -/
theorem foldlM_error {max : ℕ} {ds es : List NudgeReadCoverage} (hok : CoverageListOk es)
    (hlen : es.length ≤ max) (f : Failure) :
    ds.foldlM (addCoverage max) es = .error f ↔ ∃ ds₁ e ds₂ es₁, ds = ds₁ ++ e :: ds₂ ∧
      ds₁.foldlM (addCoverage max) es = .ok es₁ ∧ Refused max es₁ e f := by
  constructor
  · intro h
    induction ds generalizing es with
    | nil => cases h
    | cons d ds ih =>
      rw [List.foldlM_cons] at h
      cases hd : addCoverage max es d with
      | error g =>
        rw [hd] at h
        exact ⟨[], d, ds, es, rfl, rfl, Except.error.inj h ▸ (addCoverage_error hok hlen g).1 hd⟩
      | ok es' =>
        rw [hd, Outcome.ok_bind] at h
        obtain ⟨hok', -, hlen'⟩ := addCoverage_ok hok hd
        obtain ⟨ds₁, e, ds₂, es₁, rfl, h1, h2⟩ := ih hok' (hlen' hlen) h
        exact ⟨d :: ds₁, e, ds₂, es₁, rfl, by rw [List.foldlM_cons, hd]; exact h1, h2⟩
  · rintro ⟨ds₁, e, ds₂, es₁, rfl, h1, h2⟩
    obtain ⟨hok1, -, hlen1⟩ := book_merged hok h1
    rw [List.foldlM_append, h1, Outcome.ok_bind, List.foldlM_cons,
      (addCoverage_error hok1 (hlen1 hlen) f).2 h2]
    rfl

end Barbaro
