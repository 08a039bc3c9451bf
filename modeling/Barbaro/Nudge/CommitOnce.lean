import Barbaro.Nudge.StoreRoundTrip
import Barbaro.Nudge.UnreadLines
import Mathlib.Algebra.Order.BigOperators.Group.List
import Mathlib.Algebra.Order.Ring.Nat

/-!
# A commit counts once

* `adds_iff`: what an entry adds to valid entries.
* `preview_unread`: a commit makes no line unread.
* `preview_advanced`: it opens a new revision exactly when it adds to an unread record.
* `commit_counts_once`: both, for the commit of a reachable cursor, and for the same
  delivery again.
* `empty_text_advances`: an empty text counts although it has no byte.
-/

namespace Barbaro

/-! ## What an entry adds -/

/-- The entry delivers a byte that is not covered yet, or is the first about an empty text. -/
def Adds (es : List NudgeReadCoverage) (e : NudgeReadCoverage) : Prop :=
  (∃ b, Ranges.Covers e.ranges b ∧ ¬ CoversByte es (coverageVersion e) b) ∨
    (e.totalBytes = 0 ∧ ¬ Touches es (coverageVersion e))

theorem Adds.not_holds {es : List NudgeReadCoverage} {e : NudgeReadCoverage} (h : Adds es e) :
    ¬ Holds es e := by
  rintro ⟨p, hp, hv, hc⟩
  rcases h with ⟨b, hb, hnot⟩ | ⟨-, hnot⟩
  · exact hnot ⟨p, hp, hv, hc b hb⟩
  · exact hnot ⟨p, hp, hv⟩

/-- Among valid entries, an entry adds something unless it is held. -/
theorem adds_iff {es : List NudgeReadCoverage} (hu : (es.map coverageKey).Nodup)
    {e : NudgeReadCoverage} (he : coverageOk e = true) : Adds es e ↔ ¬ Holds es e := by
  refine ⟨Adds.not_holds, fun hnot => ?_⟩
  by_contra hadds
  simp only [Adds, not_or, not_exists, not_and, not_not] at hadds
  obtain ⟨hbytes, hempty⟩ := hadds
  have htouch : Touches es (coverageVersion e) := by
    by_cases hn : e.totalBytes = 0
    · exact hempty hn
    · -- the first byte of the first range
      have hranges := coverageOk_ranges he
      obtain ⟨r, hr⟩ := List.exists_mem_of_ne_nil _ hranges.nonempty
      have hlt := hranges.inhabited hn r hr
      obtain ⟨p, hp, hv, -⟩ := hbytes r.start ⟨r, hr, le_rfl, hlt⟩
      exact ⟨p, hp, hv⟩
  obtain ⟨p, hp, hv⟩ := htouch
  refine hnot ⟨p, hp, hv, fun b hb => ?_⟩
  obtain ⟨p', hp', hv', hb'⟩ := hbytes b hb
  have hsame : p' = p := List.inj_on_of_nodup_map hu hp' hp (version_key (hv'.trans hv.symm))
  rwa [hsame] at hb'

theorem version_record {a b : NudgeReadCoverage} (h : coverageVersion a = coverageVersion b) :
    coverageRecordKey a = coverageRecordKey b := by
  simp only [coverageVersion, coverageKey, CoverageVersion.mk.injEq, CoverageKey.mk.injEq] at h
  obtain ⟨⟨h1, h2, h3, -⟩, h4, -⟩ := h
  rw [coverageRecordKey, coverageRecordKey, h1, h2, h3, h4]

/-! ## The parts of a preview -/

section
variable {E : Host} {epoch : MembershipEpoch E}

/-- How a preview is made, from the scan before and the scan after. -/
structure PreviewMade (epoch : MembershipEpoch E) (filesBefore filesAfter : List BarbaroFeedFile)
    (s : NudgeCursorV3) (delivered : List NudgeReadCoverage) (preview : ReadCoveragePreview)
    (before after : ScopedScan E) (merged : NudgeReadState) : Prop where
  scanned : scanState epoch (some (delivered.map coverageRecordKey)) s.virtual filesBefore = .ok before
  merge : mergeReadCoverageForScan (collapseReadCursor s before).reads (unreadEntries before delivered) =
    .ok (merged, preview.advanced)
  rescanned : scanAfter epoch filesAfter before { collapseReadCursor s before with reads := merged }
    preview.advanced = .ok after
  state : preview.state =
    collapseReadCursor { collapseReadCursor s before with reads := merged } after
  unavailable : preview.selectedFeedUnavailable = delivered.any (fun e =>
    coverageFeedKey e ∈ before.unavailableFeedKeys || coverageFeedKey e ∈ after.unavailableFeedKeys)

theorem preview_ok {filesBefore filesAfter : List BarbaroFeedFile} {s : NudgeCursorV3}
    (hsame : sameMembership epoch (.v3 s) = true) {delivered : List NudgeReadCoverage}
    {preview : ReadCoveragePreview}
    (h : previewReadCoverage epoch filesBefore filesAfter s delivered = .ok preview) :
    ∃ before after merged,
      PreviewMade epoch filesBefore filesAfter s delivered preview before after merged := by
  simp only [previewReadCoverage, Outcome.bind_ok, Outcome.pure_ok, Prod.exists] at h
  obtain ⟨before, hb, merged, advanced, hmerge, after, ha, rfl⟩ := h
  rw [rescanHookReadCursor, scanUnread_own hsame] at hb
  exact ⟨before, after, merged, hb, hmerge, ha, rfl, rfl⟩

variable {w w₁ w₂ : Feeds} {G : List NudgeReadCoverage} {filesBefore filesAfter : List BarbaroFeedFile}
  {s : NudgeCursorV3} {delivered : List NudgeReadCoverage} {preview : ReadCoveragePreview}
  {before after : ScopedScan E} {merged : NudgeReadState}

/-- The entries of the cursor between the two scans. -/
theorem PreviewMade.entries
    (hm : PreviewMade epoch filesBefore filesAfter s delivered preview before after merged)
    (hok : CoverageListOk s.reads.coverage) :
    Merged (collapseReadCursor s before).reads.coverage (unreadEntries before delivered) merged.coverage
        preview.advanced ∧
      (preview.advanced = true ↔ ∃ e ∈ unreadEntries before delivered,
        ¬ Holds (collapseReadCursor s before).reads.coverage e) := by
  have hbase : CoverageListOk (collapseReadCursor s before).reads.coverage :=
    ⟨fun e he => hok.ok e (List.mem_filter.1 he).1, hok.unique.sublist (List.filter_sublist.map _)⟩
  obtain ⟨h1, h2, -⟩ := mergeReadCoverageForScan_ok hbase hm.merge
  exact ⟨h1, h2⟩

theorem PreviewMade.coverage
    (hm : PreviewMade epoch filesBefore filesAfter s delivered preview before after merged) :
    preview.state.reads.coverage =
      merged.coverage.filter (fun e => coverageRecordKey e ∉ after.collapsedRecordKeys) := by
  rw [hm.state]
  rfl

/-- The two moves of a preview, on the feeds as they are after it. -/
structure PreviewMoved (epoch : MembershipEpoch E) (w : Feeds) (s : NudgeCursorV3)
    (before after : ScopedScan E) (merged : NudgeReadState) : Prop where
  start : ∀ k, startOf (savedCheckpoint s.feedCursors k) ≤ (w k).size
  between : ∀ k, startOf (savedCheckpoint before.coveredFeedCursors k) ≤ (w k).size
  stop : ∀ k, startOf (savedCheckpoint after.coveredFeedCursors k) ≤ (w k).size
  first : Moved epoch w s.reads s.feedCursors before.coveredFeedCursors before.collapsedRecordKeys
  second : after = before ∨
    Moved epoch w merged before.coveredFeedCursors after.coveredFeedCursors after.collapsedRecordKeys

theorem PreviewMade.moved
    (hm : PreviewMade epoch filesBefore filesAfter s delivered preview before after merged)
    (hbefore : ListingShows w w₁ filesBefore) (hafter : ListingShows w₁ w₂ filesAfter)
    (hsame : sameMembership epoch (.v3 s) = true) (hs : CursorSound epoch w G s) :
    PreviewMoved epoch w₂ s before after merged ∧
      (preview.advanced = false → after = before) := by
  have hs' : CursorSound epoch w G s.virtual.state := hs
  have hbase : CursorSound epoch w₁ G (collapseReadCursor s before) :=
    scan_sound hbefore hs' hm.scanned hs.coverage_ok hs.delivered
  have hgrow := hafter.grows
  have hstart : ∀ k, startOf (savedCheckpoint s.feedCursors k) ≤ (w₁ k).size := fun k =>
    (hs.startOf_le k).trans (hbefore.grows k).size_le
  have hbetween : ∀ k, startOf (savedCheckpoint before.coveredFeedCursors k) ≤ (w₁ k).size :=
    hbase.startOf_le
  have hfirst := (scan_moved hbefore hs' hm.scanned).mono hgrow hstart hbetween
  have hle : ∀ k n, n ≤ (w₁ k).size → n ≤ (w₂ k).size := fun k n h => h.trans (hgrow k).size_le
  have hscan := hm.rescanned
  rw [scanAfter] at hscan
  split at hscan
  · next hadv =>
    obtain ⟨hmerged, -⟩ := hm.entries hs.coverage_ok
    have hnext : CursorSound epoch w₁ (G ++ unreadEntries before delivered)
        ({ collapseReadCursor s before with reads := merged } : NudgeCursorV3).virtual.state :=
      ⟨hbase.unique, hbase.checkpoints,
        fun k => (hbase.passed k).mono (.of_subset (List.subset_append_left _ _)), hmerged.ok,
        hmerged.within hbase.delivered⟩
    rw [rescanHookReadCursor, scanUnread_own (show sameMembership epoch (.v3
      { collapseReadCursor s before with reads := merged }) = true from hsame)] at hscan
    have hlast := scan_sound (s := { collapseReadCursor s before with reads := merged }) hafter hnext
      hscan hmerged.ok (hmerged.within hbase.delivered)
    exact ⟨⟨fun k => hle k _ (hstart k), fun k => hle k _ (hbetween k), hlast.startOf_le, hfirst,
      .inr (scan_moved hafter hnext hscan)⟩, fun h => by rw [hadv] at h; cases h⟩
  · cases hscan
    exact ⟨⟨fun k => hle k _ (hstart k), fun k => hle k _ (hbetween k), fun k => hle k _ (hbetween k),
      hfirst, .inl rfl⟩, fun _ => rfl⟩

/-! ## What stays acknowledged -/

/-- After the positions of a preview, no record was collapsed by either scan. -/
theorem PreviewMoved.not_collapsed {w : Feeds} (h : PreviewMoved epoch w s before after merged)
    (hu : UniqueTurns E w) (rk : RecordKey) {t : Turn E}
    (ht : t ∈ turnsOf E (linesAfter E (w rk.feed) (savedCheckpoint after.coveredFeedCursors rk.feed)))
    (hid : rk.turnId = t.turnId) : rk ∉ before.collapsedRecordKeys ∧ rk ∉ after.collapsedRecordKeys := by
  rcases h.second with heq | hsecond
  · rw [heq] at ht ⊢
    have hfirst := h.first.not_collapsed hu (h.between _) ht hid
    exact ⟨hfirst, hfirst⟩
  · refine ⟨?_, hsecond.not_collapsed hu (h.stop _) ht hid⟩
    obtain ⟨mid, hmid, -, -⟩ := hsecond rk.feed
    have hafter := linesAfter_moved (h.between _) (h.stop _) hmid
    refine h.first.not_collapsed hu (h.between _) ?_ hid
    rw [hafter, turnsOf_append]
    exact List.mem_append_right _ ht

/-- A delivered entry that counts is about a record that was found unread. -/
theorem PreviewMade.found
    (hm : PreviewMade epoch filesBefore filesAfter s delivered preview before after merged)
    (hbefore : ListingShows w w₁ filesBefore) (hs : CursorSound epoch w G s) {e : NudgeReadCoverage}
    (he : e ∈ unreadEntries before delivered) :
    e ∈ delivered ∧ FoundUnread epoch filesBefore s (coverageRecordKey e) := by
  obtain ⟨hd, hk⟩ := List.mem_filter.1 he
  have hs' : CursorSound epoch w G s.virtual.state := hs
  exact ⟨hd, (scan_keys hbefore hs' hm.scanned (List.mem_map_of_mem hd)).1 (by simpa using hk)⟩

/-- After its positions, a preview keeps what is acknowledged. -/
theorem PreviewMade.keeps
    (hm : PreviewMade epoch filesBefore filesAfter s delivered preview before after merged)
    (hbefore : ListingShows w w₁ filesBefore) (hafter : ListingShows w₁ w₂ filesAfter)
    (hu : UniqueTurns E w₂) (hs : CursorSound epoch w G s)
    (hmoved : PreviewMoved epoch w₂ s before after merged) {k : FeedKey} {t : Turn E}
    (ht : t ∈ turnsOf E (linesAfter E (w₂ k) (savedCheckpoint after.coveredFeedCursors k)))
    (helig : eligible epoch k t = true) (hack : isReadRecordAcknowledged s.reads t = true) :
    isReadRecordAcknowledged preview.state.reads t = true := by
  obtain ⟨hmerged, -⟩ := hm.entries hs.coverage_ok
  obtain ⟨e, he, hcand⟩ := isReadRecordAcknowledged_iff.1 hack
  obtain ⟨h1, h2, h3, h4⟩ := acknowledging_key hcand
  have hkey : coverageRecordKey e = recordKey t := by rw [coverageRecordKey, h1, h2, h3, h4]; rfl
  have hfeed : k = (recordKey t).feed := by
    obtain ⟨h1, h2, -⟩ := eligible_iff.1 helig
    rw [RecordKey.feed, recordKey, h1, h2]
  rw [hfeed] at ht
  obtain ⟨hfirst, hlast⟩ := hmoved.not_collapsed hu (recordKey t) ht rfl
  have hbase : e ∈ (collapseReadCursor s before).reads.coverage := by
    simp only [collapseReadCursor, List.mem_filter, decide_eq_true_eq]
    exact ⟨he, hkey ▸ hfirst⟩
  have hother : coverageKey e ∉ (unreadEntries before delivered).map coverageKey := by
    intro hin
    obtain ⟨d, hd, hdk⟩ := List.mem_map.1 hin
    obtain ⟨t', ht', hunread, hkey'⟩ := (hm.found hbefore hs hd).2.turn hbefore
    simp only [coverageKey, CoverageKey.mk.injEq] at hdk
    obtain ⟨hd1, hd2, hd3, -⟩ := hdk
    have hfeed' : (coverageRecordKey d).feed = (recordKey t).feed := by
      simp only [RecordKey.feed, coverageRecordKey, recordKey, FeedKey.mk.injEq]
      exact ⟨hd1.trans h1, hd2.trans h2⟩
    rw [hfeed'] at ht' hunread
    have hin' : t' ∈ turnsOf E (linesOf E (w₂ (recordKey t).feed) (w₂ (recordKey t).feed).size) :=
      turnsOf_subset (linesOf_all_grows (hafter.grows _)).subset ht'
    have hin : t ∈ turnsOf E (linesOf E (w₂ (recordKey t).feed) (w₂ (recordKey t).feed).size) := by
      rw [linesOf_split _ (hmoved.stop _), turnsOf_append]
      exact List.mem_append_right _ ht
    have hid : t'.turnId = t.turnId := by
      have hid := congrArg RecordKey.turnId hkey'
      simp only [recordKey, coverageRecordKey] at hid
      rw [hid, hd3, h3]
    rw [hu.eq hin' hin hid] at hunread
    simp [isUnread, hack] at hunread
  refine isReadRecordAcknowledged_iff.2 ⟨e, ?_, hcand⟩
  rw [hm.coverage, List.mem_filter, decide_eq_true_eq]
  exact ⟨(hmerged.other e hother).2 hbase, hkey ▸ hlast⟩

/-- **A commit makes no line unread**; one that adds nothing leaves the unread lines as they are. -/
theorem preview_unread (hbefore : ListingShows w w₁ filesBefore) (hafter : ListingShows w₁ w₂ filesAfter)
    (hu : UniqueTurns E w₂) (hsame : sameMembership epoch (.v3 s) = true) (hs : CursorSound epoch w G s)
    (h : previewReadCoverage epoch filesBefore filesAfter s delivered = .ok preview) (k : FeedKey) :
    (unreadLines epoch w₂ preview.state k).Sublist (unreadLines epoch w₂ s k) ∧
      (preview.advanced = false →
        unreadLines epoch w₂ preview.state k = unreadLines epoch w₂ s k) := by
  obtain ⟨before, after, merged, hm⟩ := preview_ok hsame h
  obtain ⟨hmoved, hnone⟩ := hm.moved hbefore hafter hsame hs
  obtain ⟨hmerged, -⟩ := hm.entries hs.coverage_ok
  -- the lines between the first and the last position
  have hmid : ∃ mid, linesOf E (w₂ k) (startOf (savedCheckpoint after.coveredFeedCursors k)) =
      linesOf E (w₂ k) (startOf (savedCheckpoint s.feedCursors k)) ++ mid ∧
      (preview.advanced = false → ∀ line ∈ mid, unreadLine epoch k s.reads line = false) := by
    obtain ⟨mid, hmid, hread, -⟩ := hmoved.first k
    rcases hmoved.second with heq | hsecond
    · exact ⟨mid, by rw [heq, hmid], fun _ => hread⟩
    · obtain ⟨mid', hmid', -, -⟩ := hsecond k
      refine ⟨mid ++ mid', by rw [hmid', hmid, List.append_assoc], fun hadv line hline => ?_⟩
      have heq := hnone hadv
      rw [heq] at hmid'
      have hnil : mid' = [] := by simpa using hmid'
      rw [hnil, List.append_nil] at hline
      exact hread line hline
  obtain ⟨mid, hmid, hread⟩ := hmid
  have hstate : preview.state.feedCursors = after.coveredFeedCursors := by rw [hm.state]; rfl
  have hstop : startOf (savedCheckpoint preview.state.feedCursors k) ≤ (w₂ k).size := by
    rw [hstate]
    exact hmoved.stop k
  have hmain := unreadLines_moved epoch (hmoved.start k) hstop (by rw [hstate]; exact hmid)
    (by
      rw [hstate]
      exact fun t ht he ha => hm.keeps hbefore hafter hu hs hmoved ht he ha)
  refine ⟨hmain.1, fun hadv => hmain.2 (hread hadv) fun t hack => ?_⟩
  obtain ⟨e, he, hcand⟩ := isReadRecordAcknowledged_iff.1 hack
  rw [hm.coverage, hmerged.unchanged hadv, List.mem_filter] at he
  exact isReadRecordAcknowledged_iff.2 ⟨e, (List.mem_filter.1 he.1).1, hcand⟩

/-! ## When a commit counts -/

/-- The feeds of what is delivered could be read. -/
theorem PreviewMade.available
    (hm : PreviewMade epoch filesBefore filesAfter s delivered preview before after merged)
    (h : preview.selectedFeedUnavailable = false) {e : NudgeReadCoverage} (he : e ∈ delivered) :
    (coverageRecordKey e).feed ∉ before.unavailableFeedKeys := by
  rw [hm.unavailable, List.any_eq_false] at h
  have he := h e he
  simp only [Bool.or_eq_true, decide_eq_true_eq, not_or] at he
  exact he.1

/-- A delivered entry about a record that is found unread counts. -/
theorem PreviewMade.counted
    (hm : PreviewMade epoch filesBefore filesAfter s delivered preview before after merged)
    (hbefore : ListingShows w w₁ filesBefore) (hs : CursorSound epoch w G s)
    (havail : preview.selectedFeedUnavailable = false) {e : NudgeReadCoverage} (he : e ∈ delivered)
    (hfound : FoundUnread epoch filesBefore s (coverageRecordKey e)) :
    e ∈ unreadEntries before delivered := by
  have hs' : CursorSound epoch w G s.virtual.state := hs
  have hk := (scan_keys hbefore hs' hm.scanned (List.mem_map_of_mem he)).2 hfound
    (hm.available havail he)
  exact List.mem_filter.2 ⟨he, by simpa using hk⟩

/-- **A commit opens a new revision exactly when it adds to a record that is unread.** -/
theorem preview_advanced (hbefore : ListingShows w w₁ filesBefore)
    (hafter : ListingShows w₁ w₂ filesAfter) (hu : UniqueTurns E w₂)
    (hsame : sameMembership epoch (.v3 s) = true) (hs : CursorSound epoch w G s)
    (h : previewReadCoverage epoch filesBefore filesAfter s delivered = .ok preview)
    (havail : preview.selectedFeedUnavailable = false) :
    preview.advanced = true ↔ ∃ e ∈ delivered,
      FoundUnread epoch filesBefore s (coverageRecordKey e) ∧ Adds s.reads.coverage e := by
  obtain ⟨before, after, merged, hm⟩ := preview_ok hsame h
  obtain ⟨hmoved, -⟩ := hm.moved hbefore hafter hsame hs
  obtain ⟨hmerged, hiff⟩ := hm.entries hs.coverage_ok
  rw [hiff]
  constructor
  · rintro ⟨e, he, hnot⟩
    obtain ⟨hd, hfound⟩ := hm.found hbefore hs he
    refine ⟨e, hd, hfound, (adds_iff hs.coverage_ok.unique (hmerged.delivered_ok e he)).2 ?_⟩
    rintro ⟨p, hp, hv, hc⟩
    -- the entry that holds it is about an unread record, so the first scan keeps it
    obtain ⟨t, ht, hunread, hkey⟩ := hfound.turn hbefore
    have hrecord := version_record hv
    have hkept : coverageRecordKey p ∉ before.collapsedRecordKeys := by
      rw [hrecord, ← hkey]
      rw [← hkey] at ht hunread
      exact hmoved.first.unread_not_collapsed hu (hmoved.between _)
        (turnsOf_subset (linesOf_all_grows (hafter.grows _)).subset ht) hunread
    refine hnot ⟨p, ?_, hv, hc⟩
    simp only [collapseReadCursor, List.mem_filter, decide_eq_true_eq]
    exact ⟨hp, hkept⟩
  · rintro ⟨e, he, hfound, hadds⟩
    refine ⟨e, hm.counted hbefore hs havail he hfound, fun hholds => hadds.not_holds ?_⟩
    obtain ⟨p, hp, hv, hc⟩ := hholds
    exact ⟨p, (List.mem_filter.1 hp).1, hv, hc⟩

/-- What a commit delivered about a record that is still unread is held afterwards. -/
theorem preview_held (hbefore : ListingShows w w₁ filesBefore) (hafter : ListingShows w₁ w₂ filesAfter)
    (hu : UniqueTurns E w₂) (hsame : sameMembership epoch (.v3 s) = true) (hs : CursorSound epoch w G s)
    (h : previewReadCoverage epoch filesBefore filesAfter s delivered = .ok preview)
    (havail : preview.selectedFeedUnavailable = false) (hkeys : (delivered.map coverageKey).Nodup)
    {e : NudgeReadCoverage} (he : e ∈ delivered)
    (hfound : FoundUnread epoch filesBefore s (coverageRecordKey e)) {t : Turn E}
    (ht : t ∈ turnsOf E (linesAfter E (w₂ (coverageRecordKey e).feed)
      (savedCheckpoint preview.state.feedCursors (coverageRecordKey e).feed)))
    (hid : t.turnId = e.turnId) : Holds preview.state.reads.coverage e := by
  obtain ⟨before, after, merged, hm⟩ := preview_ok hsame h
  obtain ⟨hmoved, -⟩ := hm.moved hbefore hafter hsame hs
  obtain ⟨hmerged, -⟩ := hm.entries hs.coverage_ok
  have hcounted := hm.counted hbefore hs havail he hfound
  have hnodup : ((unreadEntries before delivered).map coverageKey).Nodup :=
    hkeys.sublist (List.filter_sublist.map _)
  obtain ⟨p, hp, hv, hc⟩ := hmerged.holds hnodup e hcounted
  have hstate : preview.state.feedCursors = after.coveredFeedCursors := by rw [hm.state]; rfl
  rw [hstate] at ht
  have hkept := (hmoved.not_collapsed hu (coverageRecordKey e) ht hid.symm).2
  refine ⟨p, ?_, hv, hc⟩
  rw [hm.coverage, List.mem_filter, decide_eq_true_eq, version_record hv]
  exact ⟨hp, hkept⟩

/-! ## Commits of a reachable cursor -/

/-- What a canonical envelope is made of. -/
theorem parseDeliveredEnvelope_ok {text : JsString} {query : ReadQuery} {recipient : ReadRecipient}
    {nonce : JsString} {envelope : DeliveredEnvelope}
    (h : parseDeliveredEnvelope E text query recipient nonce = some envelope) :
    byteLength envelope.text + 1 ≤ readOutputCeilingBytes ∧
      (∃ output, Json.parse E.float envelope.text = some output ∧
        envelopeOk query envelope.text output = true) ∧
      ∃ delivery, deliveredCoverage E recipient.provider delivery = some envelope.coverage := by
  simp only [parseDeliveredEnvelope] at h
  split at h
  · cases h
  · next hlen =>
    split at h
    · cases h
    · next output hparse =>
      split at h
      · cases h
      · next hok =>
        split at h
        · split at h
          · next delivery hdelivery =>
            split at h
            · cases h
            · obtain ⟨coverage, hcoverage, rfl⟩ := Option.map_eq_some_iff.1 h
              exact ⟨by simpa using hlen, ⟨output, hparse, by simpa using hok⟩, delivery, hcoverage⟩
          · cases h
        · cases h

/-- The entries of one delivery are valid and have different keys. -/
theorem deliveredCoverage_ok {provider : ParticipatingProvider} {delivery : Json}
    {coverage : List NudgeReadCoverage} (h : deliveredCoverage E provider delivery = some coverage) :
    CoverageListOk coverage := by
  simp only [deliveredCoverage] at h
  split at h
  · next state hstate =>
    split at h
    · cases h
    · cases h
      exact (parseNudgeReadState_ok hstate).coverage
  · cases h

theorem committedCoverage_ok (s : NudgeCursorV3) (invocation : HookReadInvocation)
    (options : HookReadOptions E) (modelText : JsString) :
    CoverageListOk (committedCoverage s invocation options modelText) := by
  have hempty : CoverageListOk [] := ⟨by simp, by simp⟩
  rw [committedCoverage]
  split
  · next pending hp =>
    cases henv : committedEnvelope (E := E) invocation modelText pending with
    | none => exact hempty
    | some envelope =>
      rw [committedEnvelope, Option.filter_eq_some_iff] at henv
      obtain ⟨-, -, delivery, hcoverage⟩ := parseDeliveredEnvelope_ok henv.1
      exact deliveredCoverage_ok hcoverage
  · exact hempty

/-- What a commit has done to the state `s`. -/
structure CountsOnce (epoch : MembershipEpoch E) (w : Feeds) (filesBefore : List BarbaroFeedFile)
    (delivered : List NudgeReadCoverage) (s s' : NudgeCursorV3) (advanced : Bool) : Prop where
  /-- It opens a revision exactly when it adds to a record that is unread. -/
  advanced_iff : advanced = true ↔ ∃ e ∈ delivered,
    FoundUnread epoch filesBefore s (coverageRecordKey e) ∧ Adds s.reads.coverage e
  opened : advanced = true → s'.cursorRevision = s.cursorRevision + 1 ∧ s'.markers = {} ∧
    s'.delivery = { highestUnreadCount := 0 }
  same : advanced = false → s'.cursorRevision = s.cursorRevision ∧ s'.markers = s.markers ∧
    s'.delivery = s.delivery
  /-- Two scans of the same readable feeds count no more after it than before. -/
  count : ∀ files scan scan', ListingShows w w files →
    scanUnread epoch none (some (.v3 s)) files = .ok scan →
    scanUnread epoch none (some (.v3 s')) files = .ok scan' →
    (∀ f ∈ files, f.key ∈ scan'.unavailableFeedKeys ↔ f.key ∈ scan.unavailableFeedKeys) →
    scan'.ready.unreadCount ≤ scan.ready.unreadCount ∧
      (advanced = false → scan'.ready.unreadCount = scan.ready.unreadCount)

/-- Fewer unread lines in every feed make smaller counts. -/
theorem count_le {s s' : NudgeCursorV3} (hs : CursorSound epoch w G s) {G' : List NudgeReadCoverage}
    (hs' : CursorSound epoch w G' s') (hsame : sameMembership epoch (.v3 s) = true)
    (hsame' : sameMembership epoch (.v3 s') = true)
    (hsub : ∀ k, (unreadLines epoch w s' k).Sublist (unreadLines epoch w s k))
    {files : List BarbaroFeedFile} {scan scan' : ScopedScan E} (hshow : ListingShows w w files)
    (h : scanUnread epoch none (some (.v3 s)) files = .ok scan)
    (h' : scanUnread epoch none (some (.v3 s')) files = .ok scan')
    (havail : ∀ f ∈ files, f.key ∈ scan'.unavailableFeedKeys ↔ f.key ∈ scan.unavailableFeedKeys) :
    scan'.ready.unreadCount ≤ scan.ready.unreadCount ∧
      ((∀ k, unreadLines epoch w s' k = unreadLines epoch w s k) →
        scan'.ready.unreadCount = scan.ready.unreadCount) := by
  rw [scanUnread_own hsame] at h
  rw [scanUnread_own hsame'] at h'
  rw [fixed_count hshow s.virtual hs h, fixed_count hshow s'.virtual hs' h']
  constructor
  · refine List.sum_le_sum fun f hf => ?_
    rw [countedLines, countedLines]
    simp only [havail f hf]
    split
    · exact le_rfl
    · exact (hsub f.key).length_le
  · intro heq
    refine congrArg List.sum (List.map_congr_left fun f hf => ?_)
    rw [countedLines, countedLines]
    simp only [havail f hf]
    split
    · rfl
    · exact congrArg List.length (heq f.key)

/-- **A commit that is not refused**, of the state `s`. -/
theorem applied_counts (hbefore : ListingShows w w₁ filesBefore) (hafter : ListingShows w₁ w₂ filesAfter)
    (hu : UniqueTurns E w₂) (hsame : sameMembership epoch (.v3 s) = true) (hs : CursorSound epoch w G s)
    (h : previewReadCoverage epoch filesBefore filesAfter s delivered = .ok preview)
    (havail : preview.selectedFeedUnavailable = false) {s' : NudgeCursorV3}
    (hpos : s'.feedCursors = preview.state.feedCursors)
    (hcov : s'.reads.coverage = preview.state.reads.coverage)
    (hsame' : sameMembership epoch (.v3 s') = true)
    (hopened : preview.advanced = true → s'.cursorRevision = s.cursorRevision + 1 ∧ s'.markers = {} ∧
      s'.delivery = { highestUnreadCount := 0 })
    (hkept : preview.advanced = false → s'.cursorRevision = s.cursorRevision ∧ s'.markers = s.markers ∧
      s'.delivery = s.delivery) :
    CountsOnce epoch w₂ filesBefore delivered s s' preview.advanced := by
  refine ⟨preview_advanced hbefore hafter hu hsame hs h havail, hopened, hkept, ?_⟩
  intro files scan scan' hshow hscan hscan' hboth
  have hunread := preview_unread hbefore hafter hu hsame hs h
  have hsound : CursorSound epoch w₂ G s :=
    hs.mono (hbefore.grows.trans hafter.grows) (.refl G)
  have hsound' : CursorSound epoch w₂ (G ++ delivered) s' :=
    (preview_sound hbefore hafter hs h).congr hpos hcov
  have hlines := unreadLines_congr epoch w₂ hpos hcov
  obtain ⟨hle, heq⟩ := count_le hsound hsound' hsame hsame'
    (fun k => by rw [hlines k]; exact (hunread k).1) hshow hscan hscan' hboth
  exact ⟨hle, fun hadv => heq fun k => by rw [hlines k]; exact (hunread k).2 hadv⟩

/-- A preview changes positions and entries only. -/
theorem preview_frame (hsame : sameMembership epoch (.v3 s) = true)
    (h : previewReadCoverage epoch filesBefore filesAfter s delivered = .ok preview) :
    sameMembership epoch (.v3 preview.state) = true ∧
      preview.state.cursorRevision = s.cursorRevision ∧ preview.state.markers = s.markers ∧
      preview.state.delivery = s.delivery := by
  obtain ⟨before, after, merged, hm⟩ := preview_ok hsame h
  rw [hm.state]
  exact ⟨hsame, rfl, rfl, rfl⟩

/-- **What a commit does**, with the preview it took over, if it took one over. -/
theorem commit_outcome (hbefore : ListingShows w w₁ filesBefore) (hafter : ListingShows w₁ w₂ filesAfter)
    (hu : UniqueTurns E w₂) (hsame : sameMembership epoch (.v3 s) = true) (hs : CursorSound epoch w G s)
    {invocation : HookReadInvocation} {options : HookReadOptions E} {modelText : JsString}
    {pending : NudgePendingRead} {u : HookCursorUpdate HookReadCommit}
    (h : CommitMade epoch filesBefore filesAfter invocation options modelText s pending u) :
    (u.result.committed = false → u.result.advanced = false ∧
      ∀ s', u.state = some s' → ∃ pending, s' = s.withPending pending) ∧
    (u.result.committed = true → ∃ s' preview, u.state = some s' ∧
      previewReadCoverage epoch filesBefore filesAfter s
        (committedCoverage s invocation options modelText) = .ok preview ∧
      preview.selectedFeedUnavailable = false ∧ u.result.advanced = preview.advanced ∧
      s'.feedCursors = preview.state.feedCursors ∧
      s'.reads.coverage = preview.state.reads.coverage ∧
      CountsOnce epoch w₂ filesBefore (committedCoverage s invocation options modelText) s s'
        u.result.advanced) := by
  have hrefused : ∀ nonce, u = refused s nonce → u.result.committed = false ∧
      u.result.advanced = false ∧ ∀ s', u.state = some s' → ∃ pending, s' = s.withPending pending := by
    rintro nonce rfl
    refine ⟨rfl, rfl, fun s' hs' => ?_⟩
    cases hs'
    exact ⟨_, rfl⟩
  rcases h.outcome with h | ⟨preview, hpreview, h⟩
  · obtain ⟨hc, hkeep⟩ := hrefused _ h
    exact ⟨fun _ => hkeep, fun ht => by rw [hc] at ht; cases ht⟩
  · obtain ⟨hsame', hrev, hmarkers, hdelivery⟩ := preview_frame hsame hpreview
    rcases applyPreview_ok h with ⟨-, hnone, hc, hadv⟩ | ⟨havail, hadv, hc, hadv', -, hstate⟩ | ⟨-, -, h⟩ |
      ⟨turn, updatedAt, havail, hadv, -, -, -, hc, hadv', -, -, hstate⟩
    · exact ⟨fun _ => ⟨hadv, fun s' hs' => by rw [hnone] at hs'; cases hs'⟩,
        fun ht => by rw [hc] at ht; cases ht⟩
    · refine ⟨fun hf => (by rw [hc] at hf; cases hf), fun _ => ⟨_, preview, hstate, hpreview, havail,
        hadv'.trans hadv.symm, rfl, rfl, ?_⟩⟩
      rw [hadv', ← hadv]
      refine applied_counts hbefore hafter hu hsame hs hpreview havail rfl rfl hsame' (fun ht => ?_)
        (fun _ => ⟨hrev, hmarkers, hdelivery⟩)
      rw [hadv] at ht
      cases ht
    · obtain ⟨hc, hkeep⟩ := hrefused _ h
      exact ⟨fun _ => hkeep, fun ht => by rw [hc] at ht; cases ht⟩
    · refine ⟨fun hf => (by rw [hc] at hf; cases hf), fun _ => ⟨_, preview, hstate, hpreview, havail,
        hadv'.trans hadv.symm, rfl, rfl, ?_⟩⟩
      rw [hadv', ← hadv]
      refine applied_counts hbefore hafter hu hsame hs hpreview havail rfl rfl hsame'
        (fun _ => ⟨rfl, rfl, rfl⟩) (fun hf => ?_)
      rw [hadv] at hf
      cases hf

/-- **The same delivery again** adds nothing, while nothing is appended to the feeds. -/
theorem preview_replayed (hbefore : ListingShows w w₁ filesBefore)
    (hafter : ListingShows w₁ w₂ filesAfter) (hu : UniqueTurns E w₂)
    (hfixed : ∀ k, (w₂ k).bytes = (w k).bytes) (hsame : sameMembership epoch (.v3 s) = true)
    (hs : CursorSound epoch w G s)
    (h : previewReadCoverage epoch filesBefore filesAfter s delivered = .ok preview)
    (havail : preview.selectedFeedUnavailable = false) (hkeys : (delivered.map coverageKey).Nodup)
    {s' : NudgeCursorV3} (hpos : s'.feedCursors = preview.state.feedCursors)
    (hcov : s'.reads.coverage = preview.state.reads.coverage) {files : List BarbaroFeedFile}
    (hshow : ListingShows w₂ w₂ files) (hlisted : ∀ f ∈ files, f.key ∈ filesBefore.map BarbaroFeedFile.key)
    {e : NudgeReadCoverage} (he : e ∈ delivered) (hfound : FoundUnread epoch files s' (coverageRecordKey e)) :
    ¬ Adds s'.reads.coverage e := by
  obtain ⟨before, after, merged, hm⟩ := preview_ok hsame h
  have hsound' : CursorSound epoch w₂ (G ++ delivered) s' :=
    (preview_sound hbefore hafter hs h).congr hpos hcov
  obtain ⟨f, hf, hfeed, hpeer, line, hline, t, ht, hkey⟩ := hfound.after hshow hsound'
  rw [unreadLines_congr epoch w₂ hpos hcov] at hline
  -- the line was unread before the first commit, and its feed was read
  have hline' := (preview_unread hbefore hafter hu hsame hs h _).1.subset hline
  rw [unreadLines, List.mem_filter] at hline hline'
  obtain ⟨f', hf', hkey'⟩ := List.mem_map.1 (hlisted f hf)
  have hfeed' : f'.key = (coverageRecordKey e).feed := hkey'.trans hfeed
  have hpeer' : f'.sessionId ≠ epoch.sessionId := by
    rw [show f'.sessionId = f.sessionId from congrArg FeedKey.sessionId hkey']
    exact hpeer
  have hs' : CursorSound epoch w G s.virtual.state := hs
  have hscanned : ∃ scanned, scanOf epoch s.reads (some (delivered.map coverageRecordKey))
      s.feedCursors f' = some scanned := by
    have hscan := scanState_ok hbefore.unique hs.unique hm.scanned
    by_contra hnone
    refine hm.available havail he ((hscan.unavailable _).2 (.inr ⟨f', hf', hfeed', hpeer', ?_⟩))
    exact Option.eq_none_iff_forall_ne_some.2 fun scanned hsome => hnone ⟨scanned, hsome⟩
  obtain ⟨scanned, hscanned⟩ := hscanned
  obtain ⟨p, hpath, hwp, hpw, -⟩ := scanned_shown hbefore hs' hf' hscanned
  have hbytes : p.bytes = (w₂ f'.key).bytes := by
    have hle := (hpw.trans (hafter.grows f'.key)).bytes
    have hge := hwp.bytes
    rw [← hfixed f'.key] at hge
    exact hle.eq_of_length_le hge.length_le
  have hfirst : FoundUnread epoch filesBefore s (coverageRecordKey e) := by
    refine ⟨f', hf', hpeer', t, ?_, ?_, hkey⟩
    · rw [shownLines_file hpath, linesAfter_congr hbytes, hfeed']
      exact mem_turnsOf.2 ⟨line, hline'.1, ht⟩
    · have hunread := hline'.2
      rw [unreadLine, ht, Option.any_some] at hunread
      rwa [hfeed']
  intro hadds
  rw [hcov] at hadds
  refine hadds.not_holds (preview_held hbefore hafter hu hsame hs h havail hkeys he hfirst
    (mem_turnsOf.2 ⟨line, hline.1, ht⟩) ?_)
  exact congrArg RecordKey.turnId hkey

/-- **A commit counts exactly once.** For a reachable cursor and feeds with unique turns: a
commit that is refused leaves all but the pending reads; any other opens a revision exactly
when it adds to an unread record, and makes no count larger; the same delivery again, over
the same feeds, opens none. -/
theorem commit_counts_once {verify : ReadQuery → DeliveredEnvelope → Except Failure Bool}
    {w₀ : Feeds} {current : Option NudgeCursor} (hrun : Run epoch verify w current G)
    {files : List BarbaroFeedFile} (hshow : ListingShows w w₀ files)
    (hbefore : ListingShows w₀ w₁ filesBefore) (hafter : ListingShows w₁ w₂ filesAfter)
    (hu : UniqueTurns E w₂) {v : VirtualCursor} (hv : virtualCursor epoch current = .ok v)
    {invocation : HookReadInvocation} {options : HookReadOptions E} {modelText : JsString}
    {u : HookCursorUpdate HookReadCommit}
    (h : commitHookReadOutput verify epoch files filesBefore filesAfter current invocation options
      modelText = .ok u) :
    (u.result.committed = false → u.result.advanced = false ∧
      ∀ s, u.state = some s → ∃ pending, s = v.state.withPending pending) ∧
    (u.result.committed = true → ∃ s, u.state = some s ∧
      CountsOnce epoch w₂ filesBefore (committedCoverage v.state invocation options modelText) v.state s
        u.result.advanced ∧
      ((∀ k, (w₂ k).bytes = (w₀ k).bytes) → ∀ s' : NudgeCursorV3, s'.feedCursors = s.feedCursors →
        s'.reads.coverage = s.reads.coverage → sameMembership epoch (.v3 s') = true →
        ∀ files' filesBefore' filesAfter' invocation' (options' : HookReadOptions E) modelText' u',
          ListingShows w₂ w₂ files' → ListingShows w₂ w₂ filesBefore' → ListingShows w₂ w₂ filesAfter' →
          (∀ f ∈ filesBefore', f.key ∈ filesBefore.map BarbaroFeedFile.key) →
          committedCoverage s' invocation' options' modelText' ⊆
            committedCoverage v.state invocation options modelText →
          commitHookReadOutput verify epoch files' filesBefore' filesAfter' (some (.v3 s')) invocation'
            options' modelText' = .ok u' →
          u'.result.advanced = false)) := by
  have hs := (hrun.sound v hv).mono hshow.grows (.refl G)
  have hsame := virtualCursor_same hv
  obtain ⟨scan, hscan, hmade⟩ := commit_ok h
  obtain ⟨v', hv', -, hcursor⟩ := scanUnread_ok hscan
  rw [hv, Except.ok.injEq] at hv'
  subst hv'
  rw [hcursor] at hmade
  rcases hmade with rfl | ⟨pending, hmade⟩
  · exact ⟨fun _ => ⟨rfl, fun s hs => by cases hs⟩, fun hc => by cases hc⟩
  · obtain ⟨hrefused, hcommitted⟩ := commit_outcome hbefore hafter hu hsame hs hmade
    refine ⟨hrefused, fun hc => ?_⟩
    obtain ⟨s, preview, hstate, hpreview, havail, hadv, hpos, hcov, hcounts⟩ := hcommitted hc
    refine ⟨s, hstate, hcounts, ?_⟩
    intro hfixed s' hpos' hcov' hsame' files' filesBefore' filesAfter' invocation' options' modelText' u'
      hshow' hbefore' hafter' hlisted hsub h'
    obtain ⟨scan', hscan', hmade'⟩ := commit_ok h'
    rw [scanUnread_own hsame'] at hscan'
    have hcursor' : scan'.cursor = s'.virtual := by
      have hsound' := (preview_sound hbefore hafter hs hpreview).congr (hpos'.trans hpos)
        (hcov'.trans hcov)
      exact (scanState_ok hshow'.unique (show (s'.virtual.state.feedCursors.map _).Nodup from
        hsound'.unique) hscan').cursor_eq
    rw [hcursor'] at hmade'
    rcases hmade' with rfl | ⟨pending', hmade'⟩
    · rfl
    · have hsound' := (preview_sound hbefore hafter hs hpreview).congr (hpos'.trans hpos)
        (hcov'.trans hcov)
      obtain ⟨hrefused', hcommitted'⟩ := commit_outcome hbefore' hafter' hu hsame' hsound' hmade'
      cases hc' : u'.result.committed with
      | false => exact (hrefused' hc').1
      | true =>
        obtain ⟨s'', preview', -, -, -, -, -, -, hcounts'⟩ := hcommitted' hc'
        by_contra hadv'
        obtain ⟨e, he, hfound, hadds⟩ := hcounts'.advanced_iff.1 (by simpa using hadv')
        exact preview_replayed hbefore hafter hu hfixed hsame hs hpreview havail
          (committedCoverage_ok _ _ _ _).unique (hpos'.trans hpos) (hcov'.trans hcov) hbefore' hlisted
          (hsub he) hfound hadds

end

/-! ## A delivered empty text -/

def emptyRecordSha256 : ℕ := 0x402372ca33c7e8156862cb29659bdd47270960534f2c31bf93a788606c579bf2
def emptyQuerySha256 : ℕ := 0xe06a59ab15151729fd0b0c5c6c313ea9afcc4ede24869ec63558cd926558b67d
def emptyBodySha256 : ℕ := 0x93d0c3742375a600d8eedab7929b22cb9ead685afbfb19dde18787fa373dac23

def emptyRecipient : ReadRecipient where
  provider := .codex
  sessionId := sampleId "ses" 1
  workstreamId := sampleId "ws" 3
  membershipFrom := sampleTime "T00:00:00.000Z"

/-- The request of the peer's turn, which is empty. -/
def emptyQuery : ReadQuery where
  kind := .turn
  projectRoot := js "/w"
  projectSha256 := digestText 0xd1bb8ca354673cd575d31d952490058c9943aef39d5a9553fb4a21ab7a59a19d
  byteBudget := 8192
  maxFileBytes := 67108864
  maxRecordBytes := 8388608
  workstreamId := some (sampleId "ws" 3)
  recipient := some emptyRecipient
  turnId := some (sampleId "turn" 1)
  field := some (.field .request)
  allWorkstreams := false

/-- The page of that request. -/
def emptyBody : List (JsString × Json) := [
  (js "agent_id", .str (js "a")),
  (js "complete", .bool true),
  (js "content_metadata", .obj [
    (js "fidelity", .str (js "verbatim")),
    (js "redactions", .arr []),
    (js "truncated", .bool false)]),
  (js "diagnostics", .obj [(js "skipped_oversized_feed_files", .num (.int 0))]),
  (js "encoding", .str (js "utf-8")),
  (js "field", .str (js "request")),
  (js "outcome", .str (js "success")),
  (js "present", .bool true),
  (js "provider", .str (js "codex")),
  (js "range", .obj [(js "end", .num (.int 0)), (js "start", .num (.int 0))]),
  (js "record_sha256", .str (digestText emptyRecordSha256)),
  (js "schema", .str (js "barbaro.reader.turn.v1")),
  (js "session_id", .str (sampleId "ses" 2)),
  (js "sha256", .str emptyDigest),
  (js "text", .str []),
  (js "total_utf8_bytes", .num (.int 0)),
  (js "turn_id", .str (sampleId "turn" 1)),
  (js "workstream_id", .str (sampleId "ws" 3))]

/-- The receipt of the page: an entry without a byte. -/
def emptyDelivery (nonce : JsString) : Json := .obj [
  (js "coverage", .arr [.obj [
    (js "field", .str (js "request")),
    (js "field_sha256", .str emptyDigest),
    (js "provider", .str (js "codex")),
    (js "ranges", .arr [.obj [(js "end", .num (.int 0)), (js "start", .num (.int 0))]]),
    (js "record_sha256", .str (digestText emptyRecordSha256)),
    (js "session_id", .str (sampleId "ses" 2)),
    (js "total_bytes", .num (.int 0)),
    (js "turn_id", .str (sampleId "turn" 1))]]),
  (js "eligible", .bool true),
  (js "nonce", .str nonce),
  (js "projection_sha256", .str (digestText emptyBodySha256)),
  (js "query_sha256", .str (digestText emptyQuerySha256)),
  (js "recipient", emptyRecipient.toJson),
  (js "schema", .str readDeliverySchema)]

def emptyNonce : JsString := hexText 32 0x0123456789abcdef0123456789abcdef

def emptyEnvelope : JsString :=
  (Json.obj [
    (js "byte_budget", .num (.int 8192)),
    (js "utf8_bytes", .num (.int 1531)),
    (js "value", .obj (emptyBody.take 3 ++ (js "delivery", emptyDelivery emptyNonce) :: emptyBody.drop 3))]).render

def emptyHost : Host :=
  .ofTables
    ([(utf8 (peerTurn "").render, emptyRecordSha256), (utf8 emptyQuery.toJson.render, emptyQuerySha256),
      (utf8 (Json.obj emptyBody).render, emptyBodySha256)] ++ sampleHashes)
    sampleDates sampleDates_ok

def emptyEpoch : MembershipEpoch emptyHost := sampleEpoch emptyHost (by decide)

def emptyInvocation : HookReadInvocation where
  query := emptyQuery
  recipient := emptyRecipient
  command := js "barbaro read turn show " ++ sampleId "turn" 1 ++ js " --field request"
  toolUseId := js "call_1"
  toolInputHash := digestText 0x70c7e05f0c3ca3467d38e20c4e3fe84359d2e6f59351ddf1e664bf29da1cbe7b
  recipient_eq := rfl
  command_ok := by decide +kernel
  toolUseId_ok := by decide
  toolInputHash_ok := by decide
  projectRoot_ok := by decide

def emptyOptions : HookReadOptions emptyHost where
  provider := .codex
  turn := .codex (sampleId "turn" 9)
  now := 1767225602000
  turn_ok := by decide

/-- The read between its reservation and its commit. -/
def emptyPending (output : Option JsString) : NudgePendingRead where
  nonce := emptyNonce
  toolUseId := emptyInvocation.toolUseId
  turn := .codex (sampleId "turn" 9)
  projectRoot := emptyQuery.projectRoot
  command := emptyInvocation.command
  querySha256 := digestText emptyQuerySha256
  toolInputSha256 := emptyInvocation.toolInputHash
  createdAt := sampleTime "T00:00:02.000Z"
  expiresAt := sampleTime "T00:05:02.000Z"
  output

def emptyCursor (output : Option JsString) : NudgeCursorV3 :=
  { (freshCursor emptyEpoch none 1).withPending [emptyPending output] with
    updatedAt := sampleTime "T00:00:02.000Z" }

def emptyStaged : Option NudgeCursor := some (.v3 (emptyCursor (some emptyEnvelope)))

/-- The page agrees with the record. -/
def verifyPage : ReadQuery → DeliveredEnvelope → Except Failure Bool := fun _ _ => .ok true

/-- What reservation, staging and commit of the page compute. -/
theorem empty_text_computed :
    (reserveHookRead emptyEpoch [peerFeed ""] none emptyInvocation emptyOptions
      emptyNonce).toOption.map HookCursorUpdate.state = some (some (emptyCursor none)) ∧
    (stageHookReadOutput emptyEpoch [peerFeed ""] (some (.v3 (emptyCursor none))) emptyInvocation
      emptyOptions emptyEnvelope).toOption.map HookCursorUpdate.state =
        some (some (emptyCursor (some emptyEnvelope))) ∧
    (virtualCursor emptyEpoch emptyStaged).toOption.map (fun v => (v.state.cursorRevision,
      (committedCoverage v.state emptyInvocation emptyOptions emptyEnvelope).all
        (fun e => e.ranges.all (fun r => r.stop ≤ r.start)))) = some (1, true) ∧
    (commitHookReadOutput verifyPage emptyEpoch [peerFeed ""] [peerFeed ""] [peerFeed ""] emptyStaged
      emptyInvocation emptyOptions emptyEnvelope).toOption.map
        (fun u => (u.result.committed, u.state.map (fun s => s.cursorRevision))) =
          some (true, some 2) ∧
    ((turnsOf emptyHost (linesOf emptyHost (peerFile "") (peerFile "").size)).map Turn.turnId).Nodup := by
  decide +kernel

theorem emptyRun : Run emptyEpoch verifyPage (peerFeeds "") emptyStaged [] := by
  obtain ⟨hreserve, hstage, -⟩ := empty_text_computed
  have hstart : Run emptyEpoch verifyPage (peerFeeds "") none [] := .start _ (by rintro c ⟨⟩)
  obtain ⟨u, hu, hstate⟩ := Option.map_eq_some_iff.1 hreserve
  obtain ⟨u', hu', hstate'⟩ := Option.map_eq_some_iff.1 hstage
  have hreserved : Run emptyEpoch verifyPage (peerFeeds "") (some (.v3 (emptyCursor none))) [] := by
    have hnext := hstart.step (.reserve (peerFeed_shows "") (Outcome.toOption_some.1 hu))
    rwa [written, hstate] at hnext
  have hnext := hreserved.step (.stage (peerFeed_shows "") (Outcome.toOption_some.1 hu'))
  rwa [written, hstate'] at hnext

theorem empty_text_committed : ∃ v u s, virtualCursor emptyEpoch emptyStaged = .ok v ∧
    (∀ e ∈ committedCoverage v.state emptyInvocation emptyOptions emptyEnvelope, ∀ b,
      ¬ Ranges.Covers e.ranges b) ∧
    commitHookReadOutput verifyPage emptyEpoch [peerFeed ""] [peerFeed ""] [peerFeed ""] emptyStaged
      emptyInvocation emptyOptions emptyEnvelope = .ok u ∧ u.result.committed = true ∧
    u.state = some s ∧ s.cursorRevision = v.state.cursorRevision + 1 := by
  obtain ⟨-, -, hv, hu, -⟩ := empty_text_computed
  obtain ⟨v, hvok, hv⟩ := Option.map_eq_some_iff.1 hv
  obtain ⟨hrev, hall⟩ := Prod.mk.inj hv
  obtain ⟨u, huok, hu⟩ := Option.map_eq_some_iff.1 hu
  obtain ⟨hc, hs⟩ := Prod.mk.inj hu
  obtain ⟨s, hstate, hrev'⟩ := Option.map_eq_some_iff.1 hs
  refine ⟨v, u, s, Outcome.toOption_some.1 hvok, fun e he b => ?_, Outcome.toOption_some.1 huok, hc,
    hstate, by rw [hrev', hrev]⟩
  rintro ⟨r, hr, hb⟩
  have hle := List.all_eq_true.1 (List.all_eq_true.1 hall e he) r hr
  simp only [decide_eq_true_eq] at hle
  omega

/-- The page without a byte, committed from a reachable cursor. -/
theorem commit_counts_once_empty : ∃ v u s, virtualCursor emptyEpoch emptyStaged = .ok v ∧
    commitHookReadOutput verifyPage emptyEpoch [peerFeed ""] [peerFeed ""] [peerFeed ""] emptyStaged
      emptyInvocation emptyOptions emptyEnvelope = .ok u ∧ u.state = some s ∧
    CountsOnce emptyEpoch (peerFeeds "") [peerFeed ""]
      (committedCoverage v.state emptyInvocation emptyOptions emptyEnvelope) v.state s
        u.result.advanced := by
  have hunique : UniqueTurns emptyHost (peerFeeds "") := fun _ => empty_text_computed.2.2.2.2
  obtain ⟨v, u, -, hv, -, hu, hc, -⟩ := empty_text_committed
  have hshow := peerFeed_shows ""
  obtain ⟨s, hs, hcounts, -⟩ :=
    (commit_counts_once emptyRun hshow hshow hshow hunique hv hu).2 hc
  exact ⟨v, u, s, hv, hu, hs, hcounts⟩

/-- A commit that delivers no byte opens a new revision. -/
theorem empty_text_advances : Run emptyEpoch verifyPage (peerFeeds "") emptyStaged [] ∧
    ∃ v u s, virtualCursor emptyEpoch emptyStaged = .ok v ∧
      (∀ e ∈ committedCoverage v.state emptyInvocation emptyOptions emptyEnvelope, ∀ b,
        ¬ Ranges.Covers e.ranges b) ∧
      commitHookReadOutput verifyPage emptyEpoch [peerFeed ""] [peerFeed ""] [peerFeed ""] emptyStaged
        emptyInvocation emptyOptions emptyEnvelope = .ok u ∧
      u.state = some s ∧ s.cursorRevision = v.state.cursorRevision + 1 := by
  obtain ⟨v, u, s, hv, hnone, hu, -, hstate, hrev⟩ := empty_text_committed
  exact ⟨emptyRun, v, u, s, hv, hnone, hu, hstate, hrev⟩

end Barbaro
