import Barbaro.Nudge.Types

/-!
# What has been delivered of the unread records

Coverage counts delivered bytes for exactly one version of a record: its identity, the
hash of the whole record, and the hash and length of the text the bytes are of.

* `mergeCoverage`: adding the coverage of one delivery to the state.
* `isReadRecordAcknowledged`: a turn is acknowledged once one of its two texts is
  covered completely.
* `mergeCoverage_covers`: after a merge every covered byte was covered before, or is of
  the delivery, for the same version.
* `mergeCoverage_changed`: a merge changes the state exactly if it adds to it.
-/

namespace Barbaro

/-! ## Bounds -/

def readOutputCeilingBytes : ℕ := 8192
def readInvocationTtlMs : ℤ := 5 * 60000
def maxPendingReads : ℕ := 32
def maxReadCoverageRecords : ℕ := 1024
def maxReadCoverageRanges : ℕ := 256

/-! ## The check of one entry -/

/-- Ranges in bounds, not inverted, empty only for an empty text, and with a gap after
the one before. -/
def rangesOk (totalBytes : ℕ) : Option ℕ → List NudgeReadRange → Bool
  | _, [] => true
  | previous, r :: rs =>
    r.start ≤ r.stop && r.stop ≤ totalBytes && (r.start ≠ r.stop || totalBytes == 0) &&
      (match previous with | some p => p < r.start | none => true) && rangesOk totalBytes (some r.stop) rs

/-- The checks of `parseCoverage` on a value that has the fields. -/
def coverageOk (e : NudgeReadCoverage) : Bool :=
  isProvider e.provider && isSessionId e.sessionId && isTurnId e.turnId &&
    isSha256Hex e.recordSha256 && isSha256Hex e.fieldSha256 && e.totalBytes ≤ maxSafeInteger &&
    e.ranges ≠ [] && e.ranges.length ≤ maxReadCoverageRanges && rangesOk e.totalBytes none e.ranges

def checkCoverage (e : NudgeReadCoverage) : Except Failure NudgeReadCoverage :=
  if coverageOk e then .ok e else .error (.typeError "invalid delivered record coverage binding")

/-! ## Merging -/

/-- Merge delivered byte intervals; no missing interval can be bridged. -/
def mergeReadRanges (ranges : List NudgeReadRange) : Except Failure (List NudgeReadRange) :=
  if ranges.any (fun r => r.stop < r.start) then .error (.typeError "invalid delivered byte range")
  else
    let merged := Ranges.merge ranges
    if merged.length > maxReadCoverageRanges then
      .error (.coverageCapacity "too many incomplete delivered byte ranges")
    else .ok merged

/-- The fields the key of an entry is made of. The source joins them with `/`, which
none of them contains. -/
structure CoverageKey where
  provider : JsString
  sessionId : JsString
  turnId : JsString
  field : ReadField
  deriving DecidableEq, Repr

def coverageKey (e : NudgeReadCoverage) : CoverageKey :=
  ⟨e.provider, e.sessionId, e.turnId, e.field⟩

/-- `map.get(key)` -/
def findCoverage (key : CoverageKey) : List NudgeReadCoverage → Option NudgeReadCoverage
  | [] => none
  | e :: es => if coverageKey e = key then some e else findCoverage key es

/-- `map.set(key, entry)`: in place if the key is there, else at the end. -/
def setCoverage (e : NudgeReadCoverage) : List NudgeReadCoverage → List NudgeReadCoverage
  | [] => [e]
  | e' :: es => if coverageKey e' = coverageKey e then e :: es else e' :: setCoverage e es

/-- Two entries are about the same version of the same text. -/
def sameVersion (a b : NudgeReadCoverage) : Bool :=
  a.recordSha256 == b.recordSha256 && a.fieldSha256 == b.fieldSha256 && a.totalBytes == b.totalBytes

/-- The entry that takes the place of `prior` when `entry` is delivered. -/
def nextCoverage (prior : Option NudgeReadCoverage) (entry : NudgeReadCoverage) :
    Except Failure NudgeReadCoverage :=
  match prior with
  | some p =>
    if sameVersion p entry then do
      let ranges ← mergeReadRanges (p.ranges ++ entry.ranges)
      return { entry with ranges }
    else return entry
  | none => return entry

/-- The loop over the delivered entries. -/
def mergeEntries (maximumRecords : ℕ) :
    List NudgeReadCoverage → List NudgeReadCoverage → Bool → Except Failure (List NudgeReadCoverage × Bool)
  | [], entries, changed => .ok (entries, changed)
  | raw :: delivered, entries, changed => do
    let entry ← checkCoverage raw
    let next ← nextCoverage (findCoverage (coverageKey entry) entries) entry
    if findCoverage (coverageKey entry) entries = some next then
      mergeEntries maximumRecords delivered entries changed
    else if (setCoverage next entries).length > maximumRecords then
      .error (.coverageCapacity "too many delivered records with unread gaps")
    else mergeEntries maximumRecords delivered (setCoverage next entries) true

/-- Merge pages without joining different record versions. The flag says whether the
state changed; the source returns the very same state when it did not. -/
def mergeCoverage (state : NudgeReadState) (delivered : List NudgeReadCoverage)
    (maximumRecords : ℕ) : Except Failure (NudgeReadState × Bool) := do
  let (coverage, changed) ← mergeEntries maximumRecords delivered state.coverage false
  return (if changed then { state with coverage } else state, changed)

def mergeReadCoverage (state : NudgeReadState) (delivered : List NudgeReadCoverage) :
    Except Failure (NudgeReadState × Bool) :=
  mergeCoverage state delivered maxReadCoverageRecords

/-- Bounded transient merge; callers must collapse prefixes and enforce the stored limit
before writing. -/
def mergeReadCoverageForScan (state : NudgeReadState) (delivered : List NudgeReadCoverage) :
    Except Failure (NudgeReadState × Bool) :=
  if delivered.length > maxReadCoverageRecords then
    .error (.coverageCapacity "too many delivered records")
  else mergeCoverage state delivered (maxReadCoverageRecords + delivered.length)

/-! ## Acknowledgement -/

def isReadCoverageComplete (e : NudgeReadCoverage) : Bool := e.ranges == [⟨0, e.totalBytes⟩]

section
variable {E : Host}

/-- The entry is about a field that acknowledges the turn: the record, or the field that
carries its attention. -/
def isCandidate (turn : Turn E) (e : NudgeReadCoverage) : Bool :=
  e.provider == turn.provider && e.sessionId == turn.sessionId && e.turnId == turn.turnId &&
    isReadCoverageComplete e && (e.field == .record || e.field == attentionField turn)

/-- The entry is about the present text of the turn. -/
def isCurrentVersion (turn : Turn E) (e : NudgeReadCoverage) : Bool :=
  e.recordSha256 == readRecordHash turn && (selectTurnText turn e.field).present &&
    e.totalBytes == byteLength (selectTurnText turn e.field).text &&
    e.fieldSha256 == readContentHash E (selectTurnText turn e.field).text

/-- Sparse coverage never suppresses a changed record or an unfinished field. -/
def isReadRecordAcknowledged (state : NudgeReadState) (turn : Turn E) : Bool :=
  (state.coverage.filter (isCandidate turn)).any (isCurrentVersion turn)

end

/-! ## Entries and their versions -/

/-- What an entry is about: one text of one version of a record. -/
structure CoverageVersion where
  key : CoverageKey
  recordSha256 : JsString
  fieldSha256 : JsString
  totalBytes : ℕ
  deriving DecidableEq, Repr

def coverageVersion (e : NudgeReadCoverage) : CoverageVersion :=
  ⟨coverageKey e, e.recordSha256, e.fieldSha256, e.totalBytes⟩

theorem sameVersion_iff {a b : NudgeReadCoverage} (hk : coverageKey a = coverageKey b) :
    sameVersion a b = true ↔ coverageVersion a = coverageVersion b := by
  simp only [sameVersion, Bool.and_eq_true, beq_iff_eq, coverageVersion, CoverageVersion.mk.injEq, hk,
    true_and, and_assoc]

/-- Among some entries there is one about this version. -/
def Touches (es : List NudgeReadCoverage) (v : CoverageVersion) : Prop :=
  ∃ e ∈ es, coverageVersion e = v

/-- A byte of this version is covered by some of the entries. -/
def CoversByte (es : List NudgeReadCoverage) (v : CoverageVersion) (b : ℕ) : Prop :=
  ∃ e ∈ es, coverageVersion e = v ∧ Ranges.Covers e.ranges b

/-! ## Ranges of a valid entry -/

theorem rangesOk_iff {n : ℕ} {previous : Option ℕ} {rs : List NudgeReadRange} :
    rangesOk n previous rs = true ↔
      (∀ r ∈ rs, r.start ≤ r.stop ∧ r.stop ≤ n ∧ (r.start ≠ r.stop ∨ n = 0)) ∧
        rs.Pairwise (fun a b => a.stop < b.start) ∧ ∀ p, previous = some p → ∀ r ∈ rs, p < r.start := by
  induction rs generalizing previous with
  | nil => simp [rangesOk]
  | cons r rs ih =>
    simp only [rangesOk, Bool.and_eq_true, ih, decide_eq_true_eq, Bool.or_eq_true, beq_iff_eq,
      List.mem_cons, forall_eq_or_imp, List.pairwise_cons, Option.some.injEq, forall_eq', ne_eq]
    constructor
    · rintro ⟨⟨⟨⟨h1, h2⟩, h3⟩, h4⟩, h5, h6, h7⟩
      refine ⟨⟨⟨h1, h2, h3⟩, h5⟩, ⟨h7, h6⟩, ?_⟩
      rintro p rfl
      simp only [decide_eq_true_eq] at h4
      refine ⟨h4, fun s hs => ?_⟩
      have := h7 s hs
      omega
    · rintro ⟨⟨⟨h1, h2, h3⟩, h4⟩, ⟨h5, h6⟩, h7⟩
      refine ⟨⟨⟨⟨h1, h2⟩, h3⟩, ?_⟩, h4, h6, h5⟩
      cases previous with
      | none => rfl
      | some p => simpa using (h7 p rfl).1

/-- What `coverageOk` says of the ranges of an entry. -/
structure RangesOk (n : ℕ) (rs : List NudgeReadRange) : Prop where
  separated : Ranges.Separated rs
  within : ∀ r ∈ rs, r.stop ≤ n
  inhabited : n ≠ 0 → Ranges.Inhabited rs
  nonempty : rs ≠ []
  bounded : rs.length ≤ maxReadCoverageRanges

theorem coverageOk_ranges {e : NudgeReadCoverage} (h : coverageOk e = true) :
    RangesOk e.totalBytes e.ranges := by
  simp only [coverageOk, Bool.and_eq_true, decide_eq_true_eq, rangesOk_iff] at h
  obtain ⟨⟨⟨-, hne⟩, hlen⟩, hall, hpair, -⟩ := h
  refine ⟨⟨fun r hr => (hall r hr).1, hpair⟩, fun r hr => (hall r hr).2.1, fun hn r hr => ?_, hne, hlen⟩
  obtain ⟨h1, -, h3⟩ := hall r hr
  rcases h3 with h3 | h3
  · omega
  · exact absurd h3 hn

/-- An entry stays valid with other ranges that are in order. -/
theorem coverageOk_withRanges {e : NudgeReadCoverage} (h : coverageOk e = true)
    {rs : List NudgeReadRange} (hr : RangesOk e.totalBytes rs) :
    coverageOk { e with ranges := rs } = true := by
  simp only [coverageOk, Bool.and_eq_true, decide_eq_true_eq, rangesOk_iff] at h ⊢
  obtain ⟨⟨⟨hid, -⟩, -⟩, -⟩ := h
  refine ⟨⟨⟨hid, hr.nonempty⟩, hr.bounded⟩, fun r hm => ?_, hr.separated.2, by simp⟩
  have h1 := hr.separated.1 r hm
  refine ⟨h1, hr.within r hm, ?_⟩
  by_cases hn : e.totalBytes = 0
  · exact .inr hn
  · have := hr.inhabited hn r hm
    exact .inl (by omega)

/-- The ranges of an empty text are the one empty range. -/
theorem RangesOk.empty {rs : List NudgeReadRange} (h : RangesOk 0 rs) : rs = [⟨0, 0⟩] := by
  rcases rs with _ | ⟨r, rs⟩
  · exact absurd rfl h.nonempty
  · have h0 : ∀ s ∈ r :: rs, s = ⟨0, 0⟩ := by
      intro s hs
      have h1 := h.separated.1 s hs
      have h2 := h.within s hs
      cases s
      simp only at h1 h2
      simp only [Ranges.Range.mk.injEq]
      omega
    rcases rs with _ | ⟨s, rs⟩
    · rw [h0 r (by simp)]
    · have := (List.pairwise_cons.1 h.separated.2).1 s (by simp)
      rw [h0 r (by simp), h0 s (by simp)] at this
      exact absurd this (by decide)

theorem mergeReadRanges_ok {rs ms : List NudgeReadRange} (h : mergeReadRanges rs = .ok ms) :
    ms = Ranges.merge rs ∧ (∀ r ∈ rs, r.start ≤ r.stop) ∧ ms.length ≤ maxReadCoverageRanges := by
  simp only [mergeReadRanges, Outcome.guard_ok, Except.ok.injEq, List.any_eq_true,
    decide_eq_true_eq, not_exists, not_and, not_lt, gt_iff_lt] at h
  obtain ⟨h1, h2, rfl⟩ := h
  exact ⟨rfl, h1, h2⟩

/-- The ranges of two valid entries of one version merge to valid ranges. -/
theorem RangesOk.merge {n : ℕ} {rs ss ms : List NudgeReadRange} (hr : RangesOk n rs)
    (hs : RangesOk n ss) (h : mergeReadRanges (rs ++ ss) = .ok ms) : RangesOk n ms := by
  obtain ⟨rfl, hle, hlen⟩ := mergeReadRanges_ok h
  refine ⟨Ranges.merge_separated hle, Ranges.merge_within ?_, fun hn => Ranges.merge_inhabited ?_,
    Ranges.merge_ne_nil ?_, hlen⟩
  · intro r hm
    rcases List.mem_append.1 hm with hm | hm
    · exact hr.within r hm
    · exact hs.within r hm
  · intro r hm
    rcases List.mem_append.1 hm with hm | hm
    · exact hr.inhabited hn r hm
    · exact hs.inhabited hn r hm
  · simp [hr.nonempty]

/-! ## The delivered entries, one by one -/

theorem findCoverage_cons {k e es} :
    findCoverage k (e :: es) = if coverageKey e = k then some e else findCoverage k es := rfl

theorem setCoverage_cons {e d es} :
    setCoverage e (d :: es) = if coverageKey d = coverageKey e then e :: es else d :: setCoverage e es := rfl

theorem findCoverage_some {key : CoverageKey} {es : List NudgeReadCoverage} {e : NudgeReadCoverage}
    (h : findCoverage key es = some e) : e ∈ es ∧ coverageKey e = key := by
  induction es with
  | nil => cases h
  | cons e' es ih =>
    rw [findCoverage_cons] at h
    split at h
    · next hk => cases h; exact ⟨by simp, hk⟩
    · exact ⟨List.mem_cons_of_mem _ (ih h).1, (ih h).2⟩

theorem findCoverage_none {key : CoverageKey} {es : List NudgeReadCoverage}
    (h : findCoverage key es = none) : ∀ e ∈ es, coverageKey e ≠ key := by
  induction es with
  | nil => simp
  | cons e' es ih =>
    rw [findCoverage_cons] at h
    split at h
    · cases h
    · next hk =>
      intro e he
      rcases List.mem_cons.1 he with rfl | he
      · exact hk
      · exact ih h e he

/-- With unique keys, an entry is the one found under its key. -/
theorem findCoverage_of_mem {es : List NudgeReadCoverage} (hu : (es.map coverageKey).Nodup)
    {e : NudgeReadCoverage} (he : e ∈ es) : findCoverage (coverageKey e) es = some e := by
  induction es with
  | nil => cases he
  | cons e' es ih =>
    rw [List.map_cons, List.nodup_cons] at hu
    rw [findCoverage_cons]
    rcases List.mem_cons.1 he with rfl | he
    · rw [if_pos rfl]
    · rw [if_neg (fun hk => hu.1 (by rw [hk]; exact List.mem_map_of_mem he)), ih hu.2 he]

theorem mem_setCoverage {e e' : NudgeReadCoverage} {es : List NudgeReadCoverage}
    (h : e' ∈ setCoverage e es) : e' = e ∨ e' ∈ es := by
  induction es with
  | nil => exact .inl (List.mem_singleton.1 h)
  | cons d es ih =>
    rw [setCoverage_cons] at h
    split at h
    · rcases List.mem_cons.1 h with h | h
      · exact .inl h
      · exact .inr (List.mem_cons_of_mem _ h)
    · rcases List.mem_cons.1 h with h | h
      · exact .inr (h ▸ List.mem_cons_self)
      · exact (ih h).imp id (List.mem_cons_of_mem _)

theorem setCoverage_self (e : NudgeReadCoverage) (es : List NudgeReadCoverage) :
    e ∈ setCoverage e es := by
  induction es with
  | nil => exact .head _
  | cons d es ih =>
    rw [setCoverage_cons]
    split
    · simp
    · exact List.mem_cons_of_mem _ ih

/-- Entries under other keys stay. -/
theorem setCoverage_other {e d : NudgeReadCoverage} {es : List NudgeReadCoverage} (hd : d ∈ es)
    (hk : coverageKey d ≠ coverageKey e) : d ∈ setCoverage e es := by
  induction es with
  | nil => cases hd
  | cons e' es ih =>
    rw [setCoverage_cons]
    rcases List.mem_cons.1 hd with rfl | hd
    · rw [if_neg hk]; simp
    · split
      · exact List.mem_cons_of_mem _ hd
      · exact List.mem_cons_of_mem _ (ih hd)

theorem setCoverage_keys (e : NudgeReadCoverage) (es : List NudgeReadCoverage) :
    (setCoverage e es).map coverageKey =
      if coverageKey e ∈ es.map coverageKey then es.map coverageKey
      else es.map coverageKey ++ [coverageKey e] := by
  induction es with
  | nil => rfl
  | cons d es ih =>
    rw [setCoverage_cons]
    by_cases hk : coverageKey d = coverageKey e
    · simp [hk]
    · rw [if_neg hk, List.map_cons, ih]
      by_cases hm : coverageKey e ∈ es.map coverageKey
      · simp [hm, Ne.symm hk]
      · simp [hm, Ne.symm hk]

theorem setCoverage_nodup {e : NudgeReadCoverage} {es : List NudgeReadCoverage}
    (h : (es.map coverageKey).Nodup) : ((setCoverage e es).map coverageKey).Nodup := by
  rw [setCoverage_keys]
  split
  · exact h
  · next hm =>
    refine List.nodup_append.2 ⟨h, by simp, fun a ha b hb => ?_⟩
    rw [List.mem_singleton.1 hb]
    rintro rfl
    exact hm ha

theorem checkCoverage_ok {e e' : NudgeReadCoverage} :
    checkCoverage e = .ok e' ↔ coverageOk e = true ∧ e = e' := by
  simp [checkCoverage]

/-- What one delivered entry does: the entry that takes its key's place is valid, is of
its version, and covers what it and the entry of that version before it covered. -/
theorem nextCoverage_ok {prior : Option NudgeReadCoverage} {entry next : NudgeReadCoverage}
    (he : coverageOk entry = true)
    (hp : ∀ p, prior = some p → coverageOk p = true ∧ coverageKey p = coverageKey entry)
    (h : nextCoverage prior entry = .ok next) :
    coverageOk next = true ∧ coverageVersion next = coverageVersion entry ∧
      (∀ b, Ranges.Covers next.ranges b → Ranges.Covers entry.ranges b ∨
        ∃ p, prior = some p ∧ coverageVersion p = coverageVersion entry ∧ Ranges.Covers p.ranges b) ∧
      (prior = some next ↔ ∃ p, prior = some p ∧ coverageVersion p = coverageVersion entry ∧
        ∀ b, Ranges.Covers entry.ranges b → Ranges.Covers p.ranges b) := by
  cases prior with
  | none =>
    simp only [nextCoverage, Outcome.pure_ok] at h
    subst h
    exact ⟨he, rfl, fun b hb => .inl hb, by simp⟩
  | some p =>
    obtain ⟨hpok, hpk⟩ := hp p rfl
    rw [nextCoverage] at h
    by_cases hv : sameVersion p entry = true
    · rw [if_pos hv] at h
      simp only [Outcome.bind_ok, Outcome.pure_ok] at h
      obtain ⟨ms, hms, rfl⟩ := h
      have hver := (sameVersion_iff hpk).1 hv
      have htotal : p.totalBytes = entry.totalBytes := congrArg CoverageVersion.totalBytes hver
      have hpr : RangesOk entry.totalBytes p.ranges := htotal ▸ coverageOk_ranges hpok
      have her := coverageOk_ranges he
      have hmr := hpr.merge her hms
      obtain ⟨hmerge, hle, -⟩ := mergeReadRanges_ok hms
      refine ⟨coverageOk_withRanges he hmr, rfl, fun b hb => ?_, ?_⟩
      · simp only [hmerge, Ranges.covers_merge hle, Ranges.covers_append] at hb
        exact hb.elim (fun hb => .inr ⟨p, rfl, hver, hb⟩) .inl
      · have heq : p = { entry with ranges := ms } ↔ ms = p.ranges := by
          refine ⟨fun h => by rw [h], fun h => ?_⟩
          cases p
          cases entry
          simp only [coverageVersion, coverageKey, CoverageVersion.mk.injEq, CoverageKey.mk.injEq]
            at hver
          simp only [NudgeReadCoverage.mk.injEq]
          simp only at h
          obtain ⟨⟨h1, h2, h3, h4⟩, h5, h6, h7⟩ := hver
          exact ⟨h1, h2, h3, h5, h4, h6, h7, h.symm⟩
        rw [Option.some.injEq, heq]
        by_cases hn : entry.totalBytes = 0
        · rw [hn] at hpr her hmr
          refine ⟨fun _ => ⟨p, rfl, hver, fun b hb => ?_⟩, fun _ => by rw [hmr.empty, hpr.empty]⟩
          rw [her.empty] at hb
          rwa [hpr.empty]
        · rw [hmerge, Ranges.merge_eq_left_iff hpr.separated (hpr.inhabited hn) (her.inhabited hn)]
          constructor
          · intro h
            exact ⟨p, rfl, hver, h⟩
          · rintro ⟨q, hq, -, h⟩
            cases hq
            exact h
    · rw [if_neg hv] at h
      simp only [Outcome.pure_ok] at h
      subst h
      have hne : coverageVersion p ≠ coverageVersion entry := fun h => hv ((sameVersion_iff hpk).2 h)
      refine ⟨he, rfl, fun b hb => .inl hb, fun h => ?_, ?_⟩
      · cases h
        exact absurd rfl hne
      · rintro ⟨q, hq, hqv, -⟩
        cases hq
        exact absurd hqv hne

/-- The entry that takes the place covers all that was delivered. -/
theorem nextCoverage_covers {prior : Option NudgeReadCoverage} {entry next : NudgeReadCoverage}
    (h : nextCoverage prior entry = .ok next) (b : ℕ) (hb : Ranges.Covers entry.ranges b) :
    Ranges.Covers next.ranges b := by
  cases prior with
  | none =>
    simp only [nextCoverage, Outcome.pure_ok] at h
    rwa [← h]
  | some p =>
    rw [nextCoverage] at h
    split at h
    · simp only [Outcome.bind_ok, Outcome.pure_ok] at h
      obtain ⟨ms, hms, rfl⟩ := h
      obtain ⟨rfl, hle, -⟩ := mergeReadRanges_ok hms
      simp only [Ranges.covers_merge hle, Ranges.covers_append]
      exact .inr hb
    · simp only [Outcome.pure_ok] at h
      rwa [← h]

/-- The state holds everything of the entry already. -/
def Holds (es : List NudgeReadCoverage) (e : NudgeReadCoverage) : Prop :=
  ∃ p ∈ es, coverageVersion p = coverageVersion e ∧
    ∀ b, Ranges.Covers e.ranges b → Ranges.Covers p.ranges b

/-- Entries that pass the check and have different keys, as the cursor stores them. -/
structure CoverageListOk (es : List NudgeReadCoverage) : Prop where
  ok : ∀ e ∈ es, coverageOk e = true
  unique : (es.map coverageKey).Nodup

theorem version_key {a b : NudgeReadCoverage} (h : coverageVersion a = coverageVersion b) :
    coverageKey a = coverageKey b := congrArg CoverageVersion.key h

/-- What a merge does to the entries. -/
structure Merged (entries delivered entries' : List NudgeReadCoverage) (changed : Bool) : Prop where
  ok : CoverageListOk entries'
  delivered_ok : ∀ e ∈ delivered, coverageOk e = true
  /-- Every byte covered afterwards was covered before, or was delivered. -/
  covers : ∀ v b, CoversByte entries' v b → CoversByte entries v b ∨ CoversByte delivered v b
  touches : ∀ v, Touches entries' v → Touches entries v ∨ Touches delivered v
  /-- Entries under keys that were not delivered are the same as before. -/
  other : ∀ e, coverageKey e ∉ delivered.map coverageKey → (e ∈ entries' ↔ e ∈ entries)
  /-- What was delivered under different keys is held afterwards. -/
  holds : (delivered.map coverageKey).Nodup → ∀ e ∈ delivered, Holds entries' e
  unchanged : changed = false → entries' = entries

theorem holds_iff {es : List NudgeReadCoverage} (hu : (es.map coverageKey).Nodup)
    (e : NudgeReadCoverage) : Holds es e ↔ ∃ p, findCoverage (coverageKey e) es = some p ∧
      coverageVersion p = coverageVersion e ∧
        ∀ b, Ranges.Covers e.ranges b → Ranges.Covers p.ranges b := by
  constructor
  · rintro ⟨p, hp, hv, hc⟩
    exact ⟨p, version_key hv ▸ findCoverage_of_mem hu hp, hv, hc⟩
  · rintro ⟨p, hp, hv, hc⟩
    exact ⟨p, (findCoverage_some hp).1, hv, hc⟩

/-- **What the loop over the delivered entries does**, and when it changes anything. -/
theorem mergeEntries_spec {max : ℕ} {delivered entries entries' : List NudgeReadCoverage}
    {c c' : Bool} (hok : CoverageListOk entries)
    (h : mergeEntries max delivered entries c = .ok (entries', c')) :
    Merged entries delivered entries' c' ∧
      (c' = true ↔ c = true ∨ ∃ e ∈ delivered, ¬ Holds entries e) := by
  induction delivered generalizing entries c with
  | nil =>
    simp only [mergeEntries, Except.ok.injEq, Prod.mk.injEq] at h
    obtain ⟨rfl, rfl⟩ := h
    exact ⟨⟨hok, by simp, fun v b => .inl, fun v => .inl, fun e _ => Iff.rfl, by simp, fun _ => rfl⟩,
      by simp⟩
  | cons raw ds ih =>
    simp only [mergeEntries, Outcome.bind_ok] at h
    obtain ⟨entry, hcheck, next, hnext, h⟩ := h
    obtain ⟨hrawok, rfl⟩ := checkCoverage_ok.1 hcheck
    have hprior : ∀ p, findCoverage (coverageKey raw) entries = some p →
        coverageOk p = true ∧ coverageKey p = coverageKey raw := fun p hp =>
      ⟨hok.ok p (findCoverage_some hp).1, (findCoverage_some hp).2⟩
    obtain ⟨hnok, hnver, hncov, hnsame⟩ := nextCoverage_ok hrawok hprior hnext
    have hncovers := nextCoverage_covers hnext
    have hnkey := version_key hnver
    rw [← holds_iff hok.unique] at hnsame
    split at h
    · -- nothing new in this entry
      next hsame =>
      have hholds := hnsame.1 hsame
      obtain ⟨hm, hiff⟩ := ih hok h
      refine ⟨⟨hm.ok, ?_, ?_, ?_, ?_, ?_, hm.unchanged⟩, ?_⟩
      · intro e he
        rcases List.mem_cons.1 he with rfl | he
        · exact hrawok
        · exact hm.delivered_ok e he
      · intro v b hb
        rcases hm.covers v b hb with h | ⟨e, he, h⟩
        · exact .inl h
        · exact .inr ⟨e, List.mem_cons_of_mem _ he, h⟩
      · intro v hv
        rcases hm.touches v hv with h | ⟨e, he, h⟩
        · exact .inl h
        · exact .inr ⟨e, List.mem_cons_of_mem _ he, h⟩
      · exact fun e he => hm.other e (fun hmem => he (by simp [hmem]))
      · intro hu e he
        rw [List.map_cons, List.nodup_cons] at hu
        rcases List.mem_cons.1 he with rfl | he
        · obtain ⟨p, hp, hv, hc⟩ := hholds
          exact ⟨p, (hm.other p (by rw [version_key hv]; exact hu.1)).2 hp, hv, hc⟩
        · exact hm.holds hu.2 e he
      · rw [hiff]
        simp [hholds]
    · next hdiff =>
      simp only [Outcome.guard_ok] at h
      have hok' : CoverageListOk (setCoverage next entries) := by
        refine ⟨fun e he => ?_, setCoverage_nodup hok.unique⟩
        rcases mem_setCoverage he with rfl | he
        · exact hnok
        · exact hok.ok e he
      obtain ⟨hm, hiff⟩ := ih hok' h.2
      have hc' : c' = true := hiff.2 (.inl rfl)
      refine ⟨⟨hm.ok, ?_, ?_, ?_, ?_, ?_, fun h0 => by rw [hc'] at h0; cases h0⟩, ?_⟩
      · intro e he
        rcases List.mem_cons.1 he with rfl | he
        · exact hrawok
        · exact hm.delivered_ok e he
      · intro v b hb
        rcases hm.covers v b hb with ⟨e, he, hv, hb⟩ | ⟨e, he, h⟩
        · rcases mem_setCoverage he with rfl | he
          · rcases hncov b hb with hb | ⟨p, hp, hpv, hb⟩
            · exact .inr ⟨raw, by simp, by rw [← hv, hnver], hb⟩
            · exact .inl ⟨p, (findCoverage_some hp).1, by rw [← hv, hnver, hpv], hb⟩
          · exact .inl ⟨e, he, hv, hb⟩
        · exact .inr ⟨e, List.mem_cons_of_mem _ he, h⟩
      · intro v hv
        rcases hm.touches v hv with ⟨e, he, hv⟩ | ⟨e, he, h⟩
        · rcases mem_setCoverage he with rfl | he
          · exact .inr ⟨raw, by simp, by rw [← hv, hnver]⟩
          · exact .inl ⟨e, he, hv⟩
        · exact .inr ⟨e, List.mem_cons_of_mem _ he, h⟩
      · intro e he
        simp only [List.map_cons, List.mem_cons, not_or] at he
        rw [hm.other e he.2]
        refine ⟨fun hmem => ?_, fun hmem => setCoverage_other hmem (by rw [hnkey]; exact he.1)⟩
        rcases mem_setCoverage hmem with rfl | hmem
        · exact absurd hnkey he.1
        · exact hmem
      · intro hu e he
        rw [List.map_cons, List.nodup_cons] at hu
        rcases List.mem_cons.1 he with rfl | he
        · exact ⟨next, (hm.other next (by rw [hnkey]; exact hu.1)).2 (setCoverage_self next entries),
            hnver, hncovers⟩
        · exact hm.holds hu.2 e he
      · rw [hc']
        refine ⟨fun _ => .inr ⟨raw, by simp, fun hh => hdiff (hnsame.2 hh)⟩, fun _ => rfl⟩

/-- **Merging a delivery into the read state.** -/
theorem mergeReadCoverageForScan_ok {state state' : NudgeReadState}
    {delivered : List NudgeReadCoverage} {changed : Bool} (hok : CoverageListOk state.coverage)
    (h : mergeReadCoverageForScan state delivered = .ok (state', changed)) :
    Merged state.coverage delivered state'.coverage changed ∧
      (changed = true ↔ ∃ e ∈ delivered, ¬ Holds state.coverage e) ∧
      state' = { state with coverage := state'.coverage } := by
  simp only [mergeReadCoverageForScan, mergeCoverage, Outcome.guard_ok, Outcome.bind_ok,
    Outcome.pure_ok, Prod.exists, Prod.mk.injEq] at h
  obtain ⟨-, entries', c', hm, hs, rfl⟩ := h
  obtain ⟨hmerged, hiff⟩ := mergeEntries_spec hok hm
  simp only [Bool.false_eq_true, false_or] at hiff
  have hcov : state'.coverage = entries' := by
    rw [← hs]
    split
    · rfl
    · next hc => exact (hmerged.unchanged (by simpa using hc)).symm
  refine ⟨hcov ▸ hmerged, hiff, ?_⟩
  rw [← hs]
  split <;> rfl

end Barbaro
