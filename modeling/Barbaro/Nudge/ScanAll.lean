import Barbaro.Nudge.ScanFeed

/-!
# Scanning all feeds

`scanState` goes through the listed feeds one after the other. Each is scanned on its own
(`scanOf`), so the result is a sum over the feeds.

* `scanOne_ok`: what one feed adds.
* `scanState_ok`: the count, the covered positions and the record keys of a scan, feed by
  feed.
-/

namespace Barbaro

/-! ## Positions by feed -/

theorem savedCheckpoint_append (as bs : List NudgeFeedCursor) (k : FeedKey) :
    savedCheckpoint (as ++ bs) k = (savedCheckpoint as k).or (savedCheckpoint bs k) := by
  simp only [savedCheckpoint, List.find?_append]
  cases as.find? (fun f => f.key = k) <;> rfl

theorem savedCheckpoint_none {saved : List NudgeFeedCursor} {k : FeedKey} :
    savedCheckpoint saved k = none ↔ k ∉ saved.map NudgeFeedCursor.key := by
  simp [savedCheckpoint]

theorem savedCheckpoint_some {saved : List NudgeFeedCursor} (hu : (saved.map NudgeFeedCursor.key).Nodup)
    {k : FeedKey} {c : JsonlCheckpoint} :
    savedCheckpoint saved k = some c ↔ ∃ f ∈ saved, f.key = k ∧ f.checkpoint = c := by
  induction saved with
  | nil => simp [savedCheckpoint]
  | cons f fs ih =>
    rw [List.map_cons, List.nodup_cons] at hu
    have ih := ih hu.2
    by_cases hk : f.key = k
    · simp only [savedCheckpoint, List.find?_cons, hk, decide_true, Option.map_some, Option.some.injEq,
        List.mem_cons, exists_eq_or_imp, true_and, iff_self_or]
      rintro ⟨f', hf', hk', -⟩
      exact absurd (List.mem_map_of_mem (f := NudgeFeedCursor.key) hf') (by rw [hk', ← hk]; exact hu.1)
    · simp only [savedCheckpoint, List.find?_cons, hk, decide_false, List.mem_cons, exists_eq_or_imp,
        false_and, false_or] at ih ⊢
      exact ih

/-- The order of the positions does not matter. -/
theorem savedCheckpoint_perm {as bs : List NudgeFeedCursor} (hp : as.Perm bs)
    (hu : (bs.map NudgeFeedCursor.key).Nodup) (k : FeedKey) :
    savedCheckpoint as k = savedCheckpoint bs k := by
  have hu' : (as.map NudgeFeedCursor.key).Nodup := (hp.map _).nodup_iff.2 hu
  refine Option.ext fun c => ?_
  rw [savedCheckpoint_some hu', savedCheckpoint_some hu]
  simp only [hp.mem_iff]

theorem savedCheckpoint_filter_self (covered : List NudgeFeedCursor) (key : FeedKey) :
    savedCheckpoint (covered.filter (fun f => f.key ≠ key)) key = none := by
  rw [savedCheckpoint_none]
  simp

theorem savedCheckpoint_filter_other (covered : List NudgeFeedCursor) {key k : FeedKey} (h : k ≠ key) :
    savedCheckpoint (covered.filter (fun f => f.key ≠ key)) k = savedCheckpoint covered k := by
  rw [savedCheckpoint, List.find?_filter, savedCheckpoint]
  congr 2
  funext f
  by_cases hf : f.key = k
  · simp [hf, h]
  · simp [hf]

/-- The position of a scanned feed after the scan: it is there unless the feed had none and
nothing of it is covered. -/
theorem coverFeed_self {covered : List NudgeFeedCursor} {key : FeedKey}
    {prior : Option JsonlCheckpoint} {c : JsonlCheckpoint} :
    (∀ x, savedCheckpoint (coverFeed covered key prior c) key = some x → x = c) ∧
      startOf (savedCheckpoint (coverFeed covered key prior c) key) = c.byteOffset := by
  rw [coverFeed]
  split
  · rw [savedCheckpoint_append, savedCheckpoint_filter_self]
    simp [savedCheckpoint, NudgeFeedCursor.key, startOf]
  · next h =>
    rw [savedCheckpoint_filter_self]
    simp only [not_or, not_lt, Nat.le_zero_eq, gt_iff_lt] at h
    simp [startOf, h.1]

theorem coverFeed_other {covered : List NudgeFeedCursor} {key k : FeedKey}
    {prior : Option JsonlCheckpoint} {c : JsonlCheckpoint} (h : k ≠ key) :
    savedCheckpoint (coverFeed covered key prior c) k = savedCheckpoint covered k := by
  rw [coverFeed]
  split
  · rw [savedCheckpoint_append, savedCheckpoint_filter_other covered h]
    have : savedCheckpoint [⟨key.provider, key.sessionId, c⟩] k = none := by
      rw [savedCheckpoint_none]
      simpa [NudgeFeedCursor.key] using h
    rw [this, Option.or_none]
  · exact savedCheckpoint_filter_other covered h

theorem coverFeed_nodup {covered : List NudgeFeedCursor} (hu : (covered.map NudgeFeedCursor.key).Nodup)
    (key : FeedKey) (prior : Option JsonlCheckpoint) (c : JsonlCheckpoint) :
    ((coverFeed covered key prior c).map NudgeFeedCursor.key).Nodup := by
  have hfilter : ((covered.filter (fun f => f.key ≠ key)).map NudgeFeedCursor.key).Nodup :=
    hu.sublist (List.Sublist.map _ List.filter_sublist)
  rw [coverFeed]
  split
  · rw [List.map_append, List.nodup_append]
    refine ⟨hfilter, by simp, ?_⟩
    simp only [List.map_cons, List.map_nil, List.mem_singleton, List.mem_map, List.mem_filter,
      decide_eq_true_eq]
    rintro k ⟨f, ⟨-, hf⟩, rfl⟩ k' rfl
    exact hf
  · exact hfilter

/-! ## One feed after the other -/

section
variable {E : Host} (epoch : MembershipEpoch E) (reads : NudgeReadState)
  (targets : Option (List RecordKey)) (saved : List NudgeFeedCursor)

/-- The scan of one listed feed, if it is a peer's and can be read. -/
def scanOf (file : BarbaroFeedFile) : Option (FeedScan E) :=
  if file.sessionId = epoch.sessionId then none
  else (scanFeed epoch file.key reads targets file (savedCheckpoint saved file.key)).toOption

variable {epoch reads targets saved}

theorem scanOf_some {file : BarbaroFeedFile} {s : FeedScan E}
    (h : scanOf epoch reads targets saved file = some s) :
    file.sessionId ≠ epoch.sessionId ∧
      scanFeed epoch file.key reads targets file (savedCheckpoint saved file.key) = .ok s := by
  rw [scanOf] at h
  split at h
  · cases h
  · next hs =>
    refine ⟨hs, ?_⟩
    cases hr : scanFeed epoch file.key reads targets file (savedCheckpoint saved file.key) with
    | error e => rw [hr] at h; cases h
    | ok s' => rw [hr] at h; cases h; rfl

/-- **What one feed of the loop does**: a feed of the recipient is passed over, an
unavailable one is noted, any other adds its scan. -/
theorem scanOne_ok {st st' : UnreadScan E} {file : BarbaroFeedFile}
    (h : scanOne epoch reads targets saved st file = .ok st') :
    (file.sessionId = epoch.sessionId ∧ scanOf epoch reads targets saved file = none ∧ st' = st) ∨
    (file.sessionId ≠ epoch.sessionId ∧ scanOf epoch reads targets saved file = none ∧
      ∃ f, st' = { st with
        availability := st.availability.noteUnavailable f
        unavailableFeedKeys := st.unavailableFeedKeys ++ [file.key] }) ∨
    ∃ s, scanOf epoch reads targets saved file = some s ∧
      st' = addScan st file.key (savedCheckpoint saved file.key) s := by
  rw [scanOne] at h
  rw [scanOf]
  split at h
  · next hs => exact .inl ⟨hs, by rw [if_pos hs], by cases h; rfl⟩
  · next hs =>
    rw [if_neg hs]
    cases hr : scanFeed epoch file.key reads targets file (savedCheckpoint saved file.key) with
    | error failure =>
      rw [hr] at h
      simp only [noteUnavailable] at h
      split at h
      · next f _ => exact .inr (.inl ⟨hs, rfl, f, by cases h; rfl⟩)
      · cases h
    | ok s =>
      rw [hr] at h
      exact .inr (.inr ⟨s, rfl, by cases h; rfl⟩)

/-- The unread count of a listed feed in a scan. -/
def countOf (scan : Option (FeedScan E)) : ℕ := (scan.map FeedScan.unreadCount).getD 0

/-- How the variables of `scanUnread` change over some feeds. -/
structure FilesScanned (epoch : MembershipEpoch E) (reads : NudgeReadState)
    (targets : Option (List RecordKey)) (saved : List NudgeFeedCursor)
    (files : List BarbaroFeedFile) (st st' : UnreadScan E) : Prop where
  count : st'.unreadCount = st.unreadCount +
    (files.map (fun f => countOf (scanOf epoch reads targets saved f))).sum
  collapsed : ∀ k, k ∈ st'.collapsedRecordKeys ↔ k ∈ st.collapsedRecordKeys ∨
    ∃ f ∈ files, ∃ s, scanOf epoch reads targets saved f = some s ∧ k ∈ s.collapsedRecordKeys
  keys : ∀ k, k ∈ st'.unreadRecordKeys ↔ k ∈ st.unreadRecordKeys ∨
    ∃ f ∈ files, ∃ s, scanOf epoch reads targets saved f = some s ∧ k ∈ s.unreadRecordKeys
  unavailable : ∀ k, k ∈ st'.unavailableFeedKeys ↔ k ∈ st.unavailableFeedKeys ∨
    ∃ f ∈ files, f.key = k ∧ f.sessionId ≠ epoch.sessionId ∧
      scanOf epoch reads targets saved f = none
  availability : st.availability.unavailable = st.unavailableFeedKeys.length →
    st'.availability.unavailable = st'.unavailableFeedKeys.length
  scanned : ∀ f ∈ files, ∀ s, scanOf epoch reads targets saved f = some s →
    (∀ c, savedCheckpoint st'.covered f.key = some c → c = s.coveredCheckpoint) ∧
      startOf (savedCheckpoint st'.covered f.key) = s.coveredCheckpoint.byteOffset
  kept : ∀ k, (∀ f ∈ files, f.key = k → scanOf epoch reads targets saved f = none) →
    savedCheckpoint st'.covered k = savedCheckpoint st.covered k
  nodup : (st.covered.map NudgeFeedCursor.key).Nodup → (st'.covered.map NudgeFeedCursor.key).Nodup

theorem scanFiles_ok {files : List BarbaroFeedFile} (hu : (files.map BarbaroFeedFile.key).Nodup)
    {st st' : UnreadScan E}
    (h : files.foldlM (scanOne epoch reads targets saved) st = .ok st') :
    FilesScanned epoch reads targets saved files st st' := by
  induction files generalizing st with
  | nil =>
    simp only [List.foldlM_nil, Outcome.pure_ok] at h
    subst h
    exact ⟨by simp, by simp, by simp, by simp, id, by simp, by simp, id⟩
  | cons file files ih =>
    rw [List.map_cons, List.nodup_cons] at hu
    simp only [List.foldlM_cons, Outcome.bind_ok] at h
    obtain ⟨st₁, h₁, h⟩ := h
    have ih := ih hu.2 h
    have hfresh : ∀ f ∈ files, f.key ≠ file.key := by
      intro f hf heq
      exact hu.1 (heq ▸ List.mem_map_of_mem hf)
    have hkept : ∀ k, (∀ f ∈ file :: files, f.key = k → scanOf epoch reads targets saved f = none) →
        savedCheckpoint st'.covered k = savedCheckpoint st₁.covered k := fun k hk =>
      ih.kept k (fun f hf => hk f (List.mem_cons_of_mem _ hf))
    have hself : savedCheckpoint st'.covered file.key = savedCheckpoint st₁.covered file.key :=
      ih.kept file.key (fun f hf hk => absurd hk (hfresh f hf))
    rcases scanOne_ok h₁ with ⟨hs, hnone, rfl⟩ | ⟨hs, hnone, f, rfl⟩ | ⟨s, hsome, rfl⟩
    · -- a feed of the recipient
      refine ⟨?_, ?_, ?_, ?_, ih.availability, ?_, ?_, ih.nodup⟩
      · simp [ih.count, hnone, countOf]
      · simp [ih.collapsed, hnone]
      · simp [ih.keys, hnone]
      · simp [ih.unavailable, hs]
      · intro f hf s hsome
        rcases List.mem_cons.1 hf with rfl | hf
        · rw [hnone] at hsome; cases hsome
        · exact ih.scanned f hf s hsome
      · exact hkept
    · -- an unavailable feed
      refine ⟨?_, ?_, ?_, ?_, ?_, ?_, hkept, ih.nodup⟩
      · simp [ih.count, hnone, countOf]
      · simp [ih.collapsed, hnone]
      · simp [ih.keys, hnone]
      · intro k
        rw [ih.unavailable]
        have hone : (file.key = k ∧ file.sessionId ≠ epoch.sessionId ∧
            scanOf epoch reads targets saved file = none) ↔ k = file.key :=
          ⟨fun h => h.1.symm, fun h => ⟨h.symm, hs, hnone⟩⟩
        simp only [List.mem_append, List.mem_cons, exists_eq_or_imp, hone, List.not_mem_nil,
          false_or, or_assoc]
      · intro h0
        refine ih.availability ?_
        simp [FeedCoverageTracker.noteUnavailable, h0]
      · intro f hf s hsome
        rcases List.mem_cons.1 hf with rfl | hf
        · rw [hnone] at hsome; cases hsome
        · exact ih.scanned f hf s hsome
    · -- a scanned feed
      have hpeer := (scanOf_some hsome).1
      refine ⟨?_, ?_, ?_, ?_, ih.availability, ?_, ?_, ?_⟩
      · rw [ih.count]
        simp only [addScan, List.map_cons, List.sum_cons, hsome, countOf, Option.map_some,
          Option.getD_some]
        omega
      · intro k
        rw [ih.collapsed]
        simp [addScan, hsome, or_assoc]
      · intro k
        rw [ih.keys]
        simp [addScan, hsome, or_assoc]
      · intro k
        rw [ih.unavailable]
        simp [addScan, hsome]
      · intro f hf s' hs'
        rcases List.mem_cons.1 hf with rfl | hf
        · rw [hsome] at hs'
          cases hs'
          rw [hself]
          exact coverFeed_self
        · exact ih.scanned f hf s' hs'
      · intro k hk
        have hne : k ≠ file.key := by
          rintro rfl
          rw [hk file (by simp) rfl] at hsome
          cases hsome
        rw [hkept k hk]
        exact coverFeed_other hne
      · exact fun h0 => ih.nodup (coverFeed_nodup h0 _ _ _)

/-- The saved feeds that are not listed any more. -/
theorem noteMissing_spec (priors : List NudgeFeedCursor) (st : UnreadScan E) :
    (priors.foldl noteMissing st).unavailableFeedKeys =
        st.unavailableFeedKeys ++ priors.map NudgeFeedCursor.key ∧
      (st.availability.unavailable = st.unavailableFeedKeys.length →
        (priors.foldl noteMissing st).availability.unavailable =
          (priors.foldl noteMissing st).unavailableFeedKeys.length) ∧
      (priors.foldl noteMissing st).covered = st.covered ∧
      (priors.foldl noteMissing st).unreadCount = st.unreadCount ∧
      (priors.foldl noteMissing st).collapsedRecordKeys = st.collapsedRecordKeys ∧
      (priors.foldl noteMissing st).unreadRecordKeys = st.unreadRecordKeys := by
  induction priors generalizing st with
  | nil => simp
  | cons p ps ih =>
    rw [List.foldl_cons]
    have hstep : ∃ f, noteMissing st p = { st with
        availability := st.availability.noteUnavailable f
        unavailableFeedKeys := st.unavailableFeedKeys ++ [p.key] } := ⟨_, rfl⟩
    obtain ⟨f, hf⟩ := hstep
    obtain ⟨h1, h2, h3, h4, h5, h6⟩ := ih (noteMissing st p)
    rw [hf] at h1 h2 h3 h4 h5 h6 ⊢
    refine ⟨by rw [h1]; simp, fun h0 => h2 ?_, h3, h4, h5, h6⟩
    simp [FeedCoverageTracker.noteUnavailable, h0]

variable (epoch targets)

/-- What a scan of all feeds found, from the positions `saved` and the read state `reads`. -/
structure StateScanned (cursor : VirtualCursor) (files : List BarbaroFeedFile)
    (scan : ScopedScan E) : Prop where
  cursor_eq : scan.cursor = cursor
  revision : scan.ready.cursorRevision = cursor.state.cursorRevision
  outsideWindow : scan.ready.outsideDeliveredWindow =
    (scan.ready.unreadCount > 0 && cursor.state.reads.outsideWindow)
  count : scan.ready.unreadCount = (files.map (fun f =>
    countOf (scanOf epoch cursor.state.reads targets cursor.state.feedCursors f))).sum
  collapsed : ∀ k, k ∈ scan.collapsedRecordKeys ↔ ∃ f ∈ files, ∃ s,
    scanOf epoch cursor.state.reads targets cursor.state.feedCursors f = some s ∧
      k ∈ s.collapsedRecordKeys
  keys : ∀ k, k ∈ scan.unreadRecordKeys ↔ ∃ f ∈ files, ∃ s,
    scanOf epoch cursor.state.reads targets cursor.state.feedCursors f = some s ∧
      k ∈ s.unreadRecordKeys
  unavailable : ∀ k, k ∈ scan.unavailableFeedKeys ↔
    (k ∈ cursor.state.feedCursors.map NudgeFeedCursor.key ∧ k ∉ files.map BarbaroFeedFile.key) ∨
      ∃ f ∈ files, f.key = k ∧ f.sessionId ≠ epoch.sessionId ∧
        scanOf epoch cursor.state.reads targets cursor.state.feedCursors f = none
  incomplete : scan.ready.coverage.isSome = true ↔ scan.unavailableFeedKeys ≠ []
  scanned : ∀ f ∈ files, ∀ s,
    scanOf epoch cursor.state.reads targets cursor.state.feedCursors f = some s →
    (∀ c, savedCheckpoint scan.coveredFeedCursors f.key = some c → c = s.coveredCheckpoint) ∧
      startOf (savedCheckpoint scan.coveredFeedCursors f.key) = s.coveredCheckpoint.byteOffset
  kept : ∀ k, (∀ f ∈ files, f.key = k →
      scanOf epoch cursor.state.reads targets cursor.state.feedCursors f = none) →
    savedCheckpoint scan.coveredFeedCursors k = savedCheckpoint cursor.state.feedCursors k
  nodup : (scan.coveredFeedCursors.map NudgeFeedCursor.key).Nodup

variable {epoch targets}

/-- **A scan of all feeds**, feed by feed. -/
theorem scanState_ok {cursor : VirtualCursor} {files : List BarbaroFeedFile}
    (hfiles : (files.map BarbaroFeedFile.key).Nodup)
    (hsaved : (cursor.state.feedCursors.map NudgeFeedCursor.key).Nodup) {scan : ScopedScan E}
    (h : scanState epoch targets cursor files = .ok scan) :
    StateScanned epoch targets cursor files scan := by
  simp only [scanState, Outcome.bind_ok, Outcome.pure_ok] at h
  obtain ⟨st, hst, rfl⟩ := h
  have hf := scanFiles_ok hfiles hst
  obtain ⟨h1, h2, h3, h4, h5, h6⟩ := noteMissing_spec
    (cursor.state.feedCursors.filter (fun f => f.key ∉ files.map BarbaroFeedFile.key))
    ({ covered := cursor.state.feedCursors } : UnreadScan E)
  have hnodup := hf.nodup (by rw [h3]; exact hsaved)
  have hperm : (sortFeedCursors st.covered).Perm st.covered := List.perm_insertionSort _ _
  have hlook : ∀ k, savedCheckpoint (sortFeedCursors st.covered) k = savedCheckpoint st.covered k :=
    savedCheckpoint_perm hperm hnodup
  have havail := hf.availability (h2 rfl)
  refine ⟨rfl, rfl, rfl, ?_, ?_, ?_, ?_, ?_, ?_, ?_, ?_⟩
  · have := hf.count
    rw [h4] at this
    simpa using this
  · intro k
    have := hf.collapsed k
    rw [h5] at this
    simpa using this
  · intro k
    have := hf.keys k
    rw [h6] at this
    simpa using this
  · intro k
    show k ∈ st.unavailableFeedKeys ↔ _
    rw [hf.unavailable, h1]
    refine or_congr_left ?_
    simp only [List.nil_append, List.mem_map, List.mem_filter, decide_eq_true_eq]
    constructor
    · rintro ⟨f, ⟨hm, hn⟩, rfl⟩
      exact ⟨⟨f, hm, rfl⟩, hn⟩
    · rintro ⟨⟨f, hm, rfl⟩, hn⟩
      exact ⟨f, ⟨hm, hn⟩, rfl⟩
  · show (if st.availability.incomplete then some st.availability else none).isSome = true ↔
      st.unavailableFeedKeys ≠ []
    rw [FeedCoverageTracker.incomplete, havail]
    cases st.unavailableFeedKeys <;> simp
  · intro f hm s hs
    show (∀ c, savedCheckpoint (sortFeedCursors st.covered) f.key = some c → _) ∧
      startOf (savedCheckpoint (sortFeedCursors st.covered) f.key) = _
    rw [hlook]
    exact hf.scanned f hm s hs
  · intro k hk
    show savedCheckpoint (sortFeedCursors st.covered) k = _
    rw [hlook, hf.kept k hk, h3]
  · exact (hperm.map _).nodup_iff.2 hnodup

end

end Barbaro
