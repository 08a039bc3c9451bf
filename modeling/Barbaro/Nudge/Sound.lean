import Barbaro.Nudge.Delivered
import Barbaro.Nudge.ReadCommit
import Barbaro.Nudge.ScanAll

/-!
# The positions of a cursor are sound

`CursorSound`: every eligible line before a saved position has been delivered completely,
and the entries of the cursor hold nothing that was not delivered.

* `scan_sound`: moving the positions over the prefix of a scan keeps this.
* `preview_sound`: so does a commit, for what it delivers.
* `claim_positions`: every other transaction leaves the positions where they are, or moves
  them over the prefix of its own scan.
-/

namespace Barbaro

/-! ## Growing feeds -/

/-- The files of all feeds. A feed that does not exist yet is the empty file it will be. -/
abbrev Feeds := FeedKey → FileState

/-- Every feed has only grown. -/
def FeedsGrow (w w' : Feeds) : Prop := ∀ k, Grows (w k) (w' k)

theorem FeedsGrow.refl (w : Feeds) : FeedsGrow w w := fun k => .refl (w k)

theorem FeedsGrow.trans {w w' w'' : Feeds} (h : FeedsGrow w w') (h' : FeedsGrow w' w'') :
    FeedsGrow w w'' := fun k => (h k).trans (h' k)

/-- A listing shows feeds that grow from `w` to `w'` while it is scanned. -/
structure ListingShows (w w' : Feeds) (files : List BarbaroFeedFile) : Prop where
  grows : FeedsGrow w w'
  unique : (files.map BarbaroFeedFile.key).Nodup
  shows : ∀ f ∈ files, FeedShows (w f.key) (w' f.key) f

section
variable {E : Host} (epoch : MembershipEpoch E)

/-- Every eligible turn on these lines of a feed has been delivered completely. -/
def LinesDelivered (k : FeedKey) (G : List NudgeReadCoverage) (ls : List (JsonlLine Json)) : Prop :=
  ∀ line ∈ ls, ∀ t, turnOf E line = some t → eligible epoch k t = true → FullyCovered G t

/-- **A sound cursor**, for the deliveries `G` so far. -/
structure CursorSound (w : Feeds) (G : List NudgeReadCoverage) (s : NudgeCursorV3) : Prop where
  unique : (s.feedCursors.map NudgeFeedCursor.key).Nodup
  checkpoints : ∀ k c, savedCheckpoint s.feedCursors k = some c → CheckpointAt E (w k) c
  passed : ∀ k, LinesDelivered epoch k G (linesOf E (w k) (startOf (savedCheckpoint s.feedCursors k)))
  coverage_ok : CoverageListOk s.reads.coverage
  delivered : Within s.reads.coverage G

/-- The state of the present membership is sound. -/
def StoreSound (w : Feeds) (G : List NudgeReadCoverage) (current : Option NudgeCursor) : Prop :=
  ∀ v, virtualCursor epoch current = .ok v → CursorSound epoch w G v.state

variable {epoch}

theorem LinesDelivered.mono {k : FeedKey} {G G' : List NudgeReadCoverage} (hG : Within G G')
    {ls : List (JsonlLine Json)} (h : LinesDelivered epoch k G ls) : LinesDelivered epoch k G' ls :=
  fun line hl t ht he => (h line hl t ht he).mono hG

theorem LinesDelivered.append {k : FeedKey} {G : List NudgeReadCoverage} {ls ms : List (JsonlLine Json)}
    (h : LinesDelivered epoch k G ls) (h' : LinesDelivered epoch k G ms) :
    LinesDelivered epoch k G (ls ++ ms) := by
  intro line hl
  rcases List.mem_append.1 hl with hl | hl
  · exact h line hl
  · exact h' line hl

theorem CursorSound.startOf_le {w : Feeds} {G : List NudgeReadCoverage} {s : NudgeCursorV3}
    (h : CursorSound epoch w G s) (k : FeedKey) :
    startOf (savedCheckpoint s.feedCursors k) ≤ (w k).size :=
  (startOf_boundary (fun c hc => h.checkpoints k c hc)).1

/-- Growth, and more deliveries, keep a cursor sound. -/
theorem CursorSound.mono {w w' : Feeds} {G G' : List NudgeReadCoverage} {s : NudgeCursorV3}
    (h : CursorSound epoch w G s) (hw : FeedsGrow w w') (hG : Within G G') :
    CursorSound epoch w' G' s := by
  refine ⟨h.unique, fun k c hc => (h.checkpoints k c hc).mono (hw k), fun k => ?_, h.coverage_ok,
    h.delivered.trans hG⟩
  rw [linesOf_grows (hw k) (h.startOf_le k)]
  exact (h.passed k).mono hG

/-- Only the positions and the coverage matter. -/
theorem CursorSound.congr {w : Feeds} {G : List NudgeReadCoverage} {s s' : NudgeCursorV3}
    (h : CursorSound epoch w G s) (hf : s'.feedCursors = s.feedCursors)
    (hc : s'.reads.coverage = s.reads.coverage) : CursorSound epoch w G s' := by
  obtain ⟨h1, h2, h3, h4, h5⟩ := h
  exact ⟨hf ▸ h1, hf ▸ h2, hf ▸ h3, hc ▸ h4, hc ▸ h5⟩

/-- A cursor without positions and coverage is sound. -/
theorem cursorSound_fresh {w : Feeds} {G : List NudgeReadCoverage} {s : NudgeCursorV3}
    (hf : s.feedCursors = []) (hc : s.reads.coverage = []) : CursorSound epoch w G s := by
  refine ⟨by simp [hf], by simp [hf, savedCheckpoint], fun k line hl => ?_, ?_, ?_⟩
  · simp [hf, savedCheckpoint, startOf, linesOf, placeLines] at hl
  · rw [hc]; exact ⟨by simp, by simp⟩
  · rw [hc]
    exact .of_subset (List.nil_subset _)

theorem virtualCursor_v3 {s : NudgeCursorV3} {v : VirtualCursor}
    (h : virtualCursor epoch (some (.v3 s)) = .ok v) :
    v.state = s ∨ (v.state.feedCursors = [] ∧ v.state.reads.coverage = []) := by
  rw [virtualCursor] at h
  by_cases hs : sameMembership epoch (.v3 s) = true
  · rw [Option.filter_some_pos hs] at h
    simp only [Except.ok.injEq] at h
    exact .inl (h ▸ rfl)
  · rw [Option.filter_some_neg (by simpa using hs)] at h
    simp only [Outcome.guard_ok, Except.ok.injEq] at h
    exact .inr (h.2 ▸ ⟨rfl, rfl⟩)

/-- The cursor as its own membership sees it. -/
def NudgeCursorV3.virtual (s : NudgeCursorV3) : VirtualCursor :=
  { state := s, reset := false, existed := true }

theorem virtualCursor_own {s : NudgeCursorV3} (h : sameMembership epoch (.v3 s) = true) :
    virtualCursor epoch (some (.v3 s)) = .ok s.virtual := by
  rw [virtualCursor, Option.filter_some_pos h]
  rfl

theorem scanUnread_own {s : NudgeCursorV3} (h : sameMembership epoch (.v3 s) = true)
    (targets : Option (List RecordKey)) (files : List BarbaroFeedFile) :
    scanUnread epoch targets (some (.v3 s)) files = scanState epoch targets s.virtual files := by
  rw [scanUnread, virtualCursor_own h]
  rfl

/-- The state of a membership belongs to it. -/
theorem virtualCursor_same {current : Option NudgeCursor} {v : VirtualCursor}
    (h : virtualCursor epoch current = .ok v) : sameMembership epoch (.v3 v.state) = true := by
  rw [virtualCursor] at h
  split at h
  · next c hc =>
    cases h
    exact (Option.filter_eq_some_iff.1 hc).2
  · next c hc =>
    cases h
    exact (Option.filter_eq_some_iff.1 hc).2
  · next c hc =>
    cases h
    exact (Option.filter_eq_some_iff.1 hc).2
  · simp only [Outcome.guard_ok, Except.ok.injEq] at h
    rw [← h.2]
    simp [sameMembership, NudgeCursor.workstreamId, NudgeCursor.membershipFrom, freshCursor]

theorem storeSound_v3 {w : Feeds} {G : List NudgeReadCoverage} {s : NudgeCursorV3}
    (h : CursorSound epoch w G s) : StoreSound epoch w G (some (.v3 s)) := by
  intro v hv
  rcases virtualCursor_v3 hv with hs | ⟨hf, hc⟩
  · exact hs ▸ h
  · exact cursorSound_fresh hf hc

/-- A membership starts with no position and no coverage. -/
theorem storeSound_start {w : Feeds} {G : List NudgeReadCoverage} {current : Option NudgeCursor}
    (h : ∀ c, current = some c → sameMembership epoch c = false) : StoreSound epoch w G current := by
  intro v hv
  have hnone : current.filter (sameMembership epoch) = none := by
    cases current with
    | none => rfl
    | some c => exact Option.filter_some_neg (by simp [h c rfl])
  rw [virtualCursor, hnone] at hv
  simp only [Outcome.guard_ok, Except.ok.injEq] at hv
  rw [← hv.2]
  exact cursorSound_fresh rfl rfl

theorem storeSound_other {w : Feeds} {G : List NudgeReadCoverage} {c : NudgeCursor}
    (h : sameMembership epoch c = false) : StoreSound epoch w G (some c) :=
  storeSound_start (by rintro c' ⟨⟩; exact h)

theorem StoreSound.mono {w w' : Feeds} {G G' : List NudgeReadCoverage} {current : Option NudgeCursor}
    (h : StoreSound epoch w G current) (hw : FeedsGrow w w') (hG : Within G G') :
    StoreSound epoch w' G' current :=
  fun v hv => (h v hv).mono hw hG

/-! ## Scans -/

/-- What one scan of all feeds found, with what it showed of each feed it scanned. -/
theorem scanned_feed {w w' : Feeds} {G : List NudgeReadCoverage} {files : List BarbaroFeedFile}
    (hshow : ListingShows w w' files) {cursor : VirtualCursor}
    (hs : CursorSound epoch w G cursor.state) {targets : Option (List RecordKey)}
    {f : BarbaroFeedFile} (hf : f ∈ files) {s : FeedScan E}
    (h : scanOf epoch cursor.state.reads targets cursor.state.feedCursors f = some s) :
    ∃ n ls, ScannedFeed epoch f.key cursor.state.reads targets (w f.key) (w' f.key)
      (savedCheckpoint cursor.state.feedCursors f.key) s n ls := by
  obtain ⟨p, ls, -, hscan⟩ := scanFeed_ok (hshow.shows f hf) (hs.checkpoints f.key) (scanOf_some h).2
  exact ⟨p.size, ls, hscan⟩

/-- The read prefix of a scan has been delivered. -/
theorem readPrefix_delivered {k : FeedKey} {reads : NudgeReadState} {G : List NudgeReadCoverage}
    (hok : CoverageListOk reads.coverage) (hG : Within reads.coverage G) (ls : List (JsonlLine Json)) :
    LinesDelivered epoch k G (readPrefix epoch k reads ls) := by
  intro line hl t ht he
  have hread : unreadLine epoch k reads line = false := by simpa using List.mem_takeWhile_imp hl
  have hack : isReadRecordAcknowledged reads t = true := by
    simpa [unreadLine, ht, isUnread, he] using hread
  exact ((acknowledged_iff hok).1 hack).mono hG

/-- **Moving the positions over the prefix of a scan keeps a cursor sound.** -/
theorem scan_sound {w w' : Feeds} {G : List NudgeReadCoverage} {files : List BarbaroFeedFile}
    (hshow : ListingShows w w' files) {cursor : VirtualCursor}
    (hs : CursorSound epoch w G cursor.state) {targets : Option (List RecordKey)} {scan : ScopedScan E}
    (h : scanState epoch targets cursor files = .ok scan) {s : NudgeCursorV3}
    (hok : CoverageListOk s.reads.coverage) (hG : Within s.reads.coverage G) :
    CursorSound epoch w' G (collapseReadCursor s scan) := by
  have hscan := scanState_ok hshow.unique hs.unique h
  have hsub : (collapseReadCursor s scan).reads.coverage.Sublist s.reads.coverage := List.filter_sublist
  -- a feed is scanned in this listing, or keeps its position
  have hcases : ∀ k, (∃ f ∈ files, f.key = k ∧ ∃ r,
        scanOf epoch cursor.state.reads targets cursor.state.feedCursors f = some r) ∨
      ∀ f ∈ files, f.key = k →
        scanOf epoch cursor.state.reads targets cursor.state.feedCursors f = none := by
    intro k
    by_cases hex : ∃ f ∈ files, f.key = k ∧ ∃ r,
        scanOf epoch cursor.state.reads targets cursor.state.feedCursors f = some r
    · exact .inl hex
    · refine .inr fun f hf hk => Option.eq_none_iff_forall_ne_some.2 fun r hr => hex ⟨f, hf, hk, r, hr⟩
  refine ⟨hscan.nodup, fun k c hc => ?_, fun k => ?_, ?_, ?_⟩
  · rcases hcases k with ⟨f, hf, rfl, r, hr⟩ | hnone
    · obtain ⟨n, ls, hfeed⟩ := scanned_feed hshow hs hf hr
      rw [(hscan.scanned f hf r hr).1 c hc]
      exact hfeed.covered
    · have hkept := hscan.kept k hnone
      simp only [collapseReadCursor] at hc
      rw [hkept] at hc
      exact (hs.checkpoints k c hc).mono (hshow.grows k)
  · simp only [collapseReadCursor]
    rcases hcases k with ⟨f, hf, rfl, r, hr⟩ | hnone
    · obtain ⟨n, ls, hfeed⟩ := scanned_feed hshow hs hf hr
      rw [(hscan.scanned f hf r hr).2, hfeed.coveredLines]
      refine .append ?_ (readPrefix_delivered hs.coverage_ok hs.delivered ls)
      rw [linesOf_grows (hshow.grows f.key) (hs.startOf_le f.key)]
      exact hs.passed f.key
    · rw [hscan.kept k hnone, linesOf_grows (hshow.grows k) (hs.startOf_le k)]
      exact hs.passed k
  · exact ⟨fun e he => hok.ok e (hsub.subset he), hok.unique.sublist (hsub.map _)⟩
  · exact (Within.of_subset hsub.subset).trans hG

theorem scanUnread_ok {targets : Option (List RecordKey)} {current : Option NudgeCursor}
    {files : List BarbaroFeedFile} {scan : ScopedScan E}
    (h : scanUnread epoch targets current files = .ok scan) :
    ∃ v, virtualCursor epoch current = .ok v ∧ scanState epoch targets v files = .ok scan ∧
      scan.cursor = v := by
  simp only [scanUnread, Outcome.bind_ok] at h
  obtain ⟨v, hv, h⟩ := h
  refine ⟨v, hv, h, ?_⟩
  simp only [scanState, Outcome.bind_ok, Outcome.pure_ok] at h
  obtain ⟨st, -, rfl⟩ := h
  rfl

/-- The same for a scan of the store. -/
theorem scanUnread_sound {w w' : Feeds} {G : List NudgeReadCoverage} {files : List BarbaroFeedFile}
    (hshow : ListingShows w w' files) {current : Option NudgeCursor}
    (hs : StoreSound epoch w G current) {targets : Option (List RecordKey)} {scan : ScopedScan E}
    (h : scanUnread epoch targets current files = .ok scan) {s : NudgeCursorV3}
    (hok : CoverageListOk s.reads.coverage) (hG : Within s.reads.coverage G) :
    CursorSound epoch w' G (collapseReadCursor s scan) := by
  obtain ⟨v, hv, hscan, -⟩ := scanUnread_ok h
  exact scan_sound hshow (hs v hv) hscan hok hG

/-! ## Commits -/

/-- **A commit's preview is sound** for what it delivers. -/
theorem preview_sound {w w₁ w₂ : Feeds} {G : List NudgeReadCoverage}
    {filesBefore filesAfter : List BarbaroFeedFile} (hbefore : ListingShows w w₁ filesBefore)
    (hafter : ListingShows w₁ w₂ filesAfter) {s : NudgeCursorV3} (hs : CursorSound epoch w G s)
    {delivered : List NudgeReadCoverage} {preview : ReadCoveragePreview}
    (h : previewReadCoverage epoch filesBefore filesAfter s delivered = .ok preview) :
    CursorSound epoch w₂ (G ++ delivered) preview.state := by
  simp only [previewReadCoverage, Outcome.bind_ok, Outcome.pure_ok, Prod.exists] at h
  obtain ⟨before, hb, merged, advanced, hmerge, after, ha, rfl⟩ := h
  have hbase : CursorSound epoch w₁ G (collapseReadCursor s before) :=
    scanUnread_sound hbefore (storeSound_v3 hs) hb hs.coverage_ok hs.delivered
  obtain ⟨hmerged, -, hstate⟩ := mergeReadCoverageForScan_ok hbase.coverage_ok hmerge
  have hadded : Within merged.coverage (G ++ delivered) := by
    refine (hmerged.within hbase.delivered).trans (.of_subset ?_)
    exact List.append_subset.2 ⟨List.subset_append_left _ _,
      fun e he => List.mem_append_right _ (List.mem_of_mem_filter he)⟩
  have hgrow : Within G (G ++ delivered) := .of_subset (List.subset_append_left _ _)
  rw [scanAfter] at ha
  split at ha
  · next hadv =>
    have hnext : CursorSound epoch w₁ (G ++ delivered)
        { collapseReadCursor s before with reads := merged } := by
      have hb' := hbase.mono (.refl w₁) hgrow
      exact ⟨hb'.unique, hb'.checkpoints, hb'.passed, hmerged.ok, hadded⟩
    exact scanUnread_sound hafter (storeSound_v3 hnext) ha hmerged.ok hadded
  · cases ha
    have hsame := scanUnread_sound (s := { collapseReadCursor s before with reads := merged }) hbefore
      (storeSound_v3 (hs.mono (.refl w) hgrow)) hb hmerged.ok hadded
    exact hsame.mono hafter.grows (.refl _)

end

end Barbaro
