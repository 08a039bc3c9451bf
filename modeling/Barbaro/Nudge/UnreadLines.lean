import Barbaro.Nudge.Run

/-!
# The unread lines of a cursor

Which lines of the feeds a cursor holds unread, as a property of the feeds and of the
cursor, not of one scan.

* `scanned_shown`: a scan counts the unread lines of what its listing shows.
* `scan_moved`: a scan moves the positions over read lines only.
* `unreadLines_moved`: what moved positions and other entries do to the unread lines.
* `fixed_count`: the count of a scan, feed by feed, while nothing is appended.
-/

namespace Barbaro

section
variable (E : Host)

/-! ## Lines -/

/-- The lines of a file after a position. -/
def linesAfter (f : FileState) (c : Option JsonlCheckpoint) : List (JsonlLine Json) :=
  (linesOf E f f.size).drop (linesOf E f (startOf c)).length

/-- The lines a scan of a feed finds after a position. -/
def shownLines (file : BarbaroFeedFile) (c : Option JsonlCheckpoint) : List (JsonlLine Json) :=
  match file.path with
  | .file p => linesAfter E p c
  | _ => []

/-- The turns on some lines. -/
def turnsOf (ls : List (JsonlLine Json)) : List (Turn E) := ls.filterMap (turnOf E)

/-- The records of a feed have different turn ids, as the store that appends them keeps
them. -/
def UniqueTurns (w : Feeds) : Prop :=
  ∀ k, ((turnsOf E (linesOf E (w k) (w k).size)).map Turn.turnId).Nodup

variable {E}

theorem turnsOf_append (as bs : List (JsonlLine Json)) :
    turnsOf E (as ++ bs) = turnsOf E as ++ turnsOf E bs := List.filterMap_append

theorem mem_turnsOf {ls : List (JsonlLine Json)} {t : Turn E} :
    t ∈ turnsOf E ls ↔ ∃ line ∈ ls, turnOf E line = some t := List.mem_filterMap

/-- More bytes have more lines. -/
theorem linesOf_prefix (f : FileState) {n m : ℕ} (h : n ≤ m) : linesOf E f n <+: linesOf E f m := by
  have hsplit : f.bytes.take m = f.bytes.take n ++ (f.bytes.drop n).take (m - n) := by
    rw [← List.take_add]
    congr 1
    omega
  rw [linesOf, linesOf, hsplit, Lines.cut_append, placeLines_append]
  exact List.prefix_append _ _

theorem linesOf_split (f : FileState) {c : Option JsonlCheckpoint} (h : startOf c ≤ f.size) :
    linesOf E f f.size = linesOf E f (startOf c) ++ linesAfter E f c := by
  obtain ⟨rest, hrest⟩ := linesOf_prefix (E := E) f h
  rw [linesAfter, ← hrest, List.drop_left]

/-- The lines after a position, when it is moved. -/
theorem linesAfter_moved {f : FileState} {c c' : Option JsonlCheckpoint} (h : startOf c ≤ f.size)
    (h' : startOf c' ≤ f.size) {mid : List (JsonlLine Json)}
    (hmid : linesOf E f (startOf c') = linesOf E f (startOf c) ++ mid) :
    linesAfter E f c = mid ++ linesAfter E f c' := by
  have h1 := linesOf_split (E := E) f h
  have h2 := linesOf_split (E := E) f h'
  rw [hmid, List.append_assoc, h1] at h2
  exact List.append_cancel_left h2

theorem linesOf_all_grows {f g : FileState} (h : Grows f g) :
    linesOf E f f.size <+: linesOf E g g.size := by
  rw [← linesOf_grows h le_rfl]
  exact linesOf_prefix g h.size_le

/-- Files with the same bytes have the same lines. -/
theorem linesOf_congr {f g : FileState} (h : f.bytes = g.bytes) (n : ℕ) :
    linesOf E f n = linesOf E g n := by rw [linesOf, h, linesOf]

theorem linesAfter_congr {f g : FileState} (h : f.bytes = g.bytes) (c : Option JsonlCheckpoint) :
    linesAfter E f c = linesAfter E g c := by
  rw [linesAfter, FileState.size, linesOf_congr h, linesOf_congr h, h]
  rfl

/-- The lines after a position stay there while the file grows. -/
theorem linesAfter_subset {f g : FileState} (hg : Grows f g) {c : Option JsonlCheckpoint}
    (hc : startOf c ≤ f.size) : linesAfter E f c ⊆ linesAfter E g c := by
  obtain ⟨more, hmore⟩ := linesOf_all_grows (E := E) hg
  have hf := linesOf_split (E := E) f hc
  have hg' := linesOf_split (E := E) g (hc.trans hg.size_le)
  rw [linesOf_grows hg hc, ← hmore, hf, List.append_assoc] at hg'
  rw [← List.append_cancel_left hg']
  exact List.subset_append_left _ _

theorem shownLines_file {file : BarbaroFeedFile} {p : FileState} (h : file.path = .file p)
    (c : Option JsonlCheckpoint) : shownLines E file c = linesAfter E p c := by
  rw [shownLines, h]

/-- What a listing shows of a feed are lines of the feed. -/
theorem shownLines_subset {f g : FileState} {file : BarbaroFeedFile} (h : FeedShows f g file)
    (c : Option JsonlCheckpoint) : shownLines E file c ⊆ linesOf E g g.size := by
  rw [shownLines]
  split
  · next p hp =>
    exact List.Subset.trans (List.drop_subset _ _) (linesOf_all_grows (h.path p hp).2).subset
  · exact List.nil_subset _

theorem turnsOf_subset {as bs : List (JsonlLine Json)} (h : as ⊆ bs) : turnsOf E as ⊆ turnsOf E bs := by
  intro t ht
  obtain ⟨line, hline, ht⟩ := mem_turnsOf.1 ht
  exact mem_turnsOf.2 ⟨line, h hline, ht⟩

/-! ## Unique turns -/

theorem UniqueTurns.eq {w : Feeds} (h : UniqueTurns E w) {k : FeedKey} {t t' : Turn E}
    (ht : t ∈ turnsOf E (linesOf E (w k) (w k).size)) (ht' : t' ∈ turnsOf E (linesOf E (w k) (w k).size))
    (hid : t.turnId = t'.turnId) : t = t' :=
  List.inj_on_of_nodup_map (h k) ht ht' hid

/-- A turn id occurs on one side of a position only. -/
theorem UniqueTurns.apart {w : Feeds} (h : UniqueTurns E w) {k : FeedKey} {as bs : List (JsonlLine Json)}
    (hsplit : linesOf E (w k) (w k).size = as ++ bs) {t t' : Turn E} (ht : t ∈ turnsOf E as)
    (ht' : t' ∈ turnsOf E bs) : t.turnId ≠ t'.turnId := by
  have hk := h k
  rw [hsplit, turnsOf_append, List.map_append] at hk
  exact (List.nodup_append.1 hk).2.2 _ (List.mem_map_of_mem ht) _ (List.mem_map_of_mem ht')

/-! ## What a scan finds -/

variable (epoch : MembershipEpoch E)

/-- The lines of a feed that a cursor holds unread. -/
def unreadLines (w : Feeds) (s : NudgeCursorV3) (k : FeedKey) : List (JsonlLine Json) :=
  (linesAfter E (w k) (savedCheckpoint s.feedCursors k)).filter (unreadLine epoch k s.reads)

/-- A record is unread in what a listing shows. -/
def FoundUnread (files : List BarbaroFeedFile) (s : NudgeCursorV3) (rk : RecordKey) : Prop :=
  ∃ f ∈ files, f.sessionId ≠ epoch.sessionId ∧
    ∃ t ∈ turnsOf E (shownLines E f (savedCheckpoint s.feedCursors f.key)),
      isUnread epoch f.key s.reads t = true ∧ recordKey t = rk

variable {epoch}

/-- The feed of a record. -/
def RecordKey.feed (rk : RecordKey) : FeedKey := ⟨rk.provider, rk.sessionId⟩

theorem isUnread_feed {k : FeedKey} {reads : NudgeReadState} {t : Turn E}
    (h : isUnread epoch k reads t = true) : k = (recordKey t).feed := by
  simp only [isUnread, Bool.and_eq_true] at h
  obtain ⟨h1, h2, -⟩ := eligible_iff.1 h.1
  rw [RecordKey.feed, recordKey, h1, h2]

theorem FoundUnread.turn {w w' : Feeds} {files : List BarbaroFeedFile} (hshow : ListingShows w w' files)
    {s : NudgeCursorV3} {rk : RecordKey} (h : FoundUnread epoch files s rk) :
    ∃ t ∈ turnsOf E (linesOf E (w' rk.feed) (w' rk.feed).size),
      isUnread epoch rk.feed s.reads t = true ∧ recordKey t = rk := by
  obtain ⟨f, hf, -, t, ht, hu, rfl⟩ := h
  rw [← isUnread_feed hu]
  exact ⟨t, turnsOf_subset (shownLines_subset (hshow.shows f hf) _) ht, hu, rfl⟩

/-- The same, after the position of the cursor. -/
theorem FoundUnread.after {w w' : Feeds} {G : List NudgeReadCoverage} {files : List BarbaroFeedFile}
    (hshow : ListingShows w w' files) {s : NudgeCursorV3} (hs : CursorSound epoch w G s) {rk : RecordKey}
    (h : FoundUnread epoch files s rk) :
    ∃ f ∈ files, f.key = rk.feed ∧ f.sessionId ≠ epoch.sessionId ∧
      ∃ line ∈ unreadLines epoch w' s rk.feed, ∃ t, turnOf E line = some t ∧ recordKey t = rk := by
  obtain ⟨f, hf, hpeer, t, ht, hu, rfl⟩ := h
  have hfeed := isUnread_feed hu
  obtain ⟨line, hline, hturn⟩ := mem_turnsOf.1 ht
  refine ⟨f, hf, hfeed, hpeer, line, ?_, t, hturn, rfl⟩
  rw [← hfeed, unreadLines, List.mem_filter]
  refine ⟨?_, by rw [unreadLine, hturn, Option.any_some, hu]⟩
  cases hpath : f.path with
  | file p =>
    obtain ⟨hfp, hpg⟩ := (hshow.shows f hf).path p hpath
    rw [shownLines, hpath] at hline
    exact linesAfter_subset hpg ((hs.startOf_le f.key).trans hfp.size_le) hline
  | missing => rw [shownLines, hpath] at hline; cases hline
  | refused code => rw [shownLines, hpath] at hline; cases hline

variable (epoch) in
/-- The unread lines depend on the positions and the entries only. -/
theorem unreadLines_congr (w : Feeds) {s s' : NudgeCursorV3} (hf : s'.feedCursors = s.feedCursors)
    (hc : s'.reads.coverage = s.reads.coverage) (k : FeedKey) :
    unreadLines epoch w s' k = unreadLines epoch w s k := by
  have hturn : isUnread epoch k s'.reads = isUnread epoch k s.reads := by
    funext t
    rw [isUnread, isUnread, isReadRecordAcknowledged, isReadRecordAcknowledged, hc]
  have hline : unreadLine epoch k s'.reads = unreadLine epoch k s.reads := by
    funext line
    rw [unreadLine, unreadLine, hturn]
  rw [unreadLines, unreadLines, hf, hline]

/-- A scan that succeeds reads the lines its listing shows. -/
theorem scanned_shown {w w' : Feeds} {G : List NudgeReadCoverage} {files : List BarbaroFeedFile}
    (hshow : ListingShows w w' files) {cursor : VirtualCursor}
    (hs : CursorSound epoch w G cursor.state) {targets : Option (List RecordKey)}
    {f : BarbaroFeedFile} (hf : f ∈ files) {s : FeedScan E}
    (h : scanOf epoch cursor.state.reads targets cursor.state.feedCursors f = some s) :
    ∃ p, f.path = .file p ∧ Grows (w f.key) p ∧ Grows p (w' f.key) ∧
      ScannedFeed epoch f.key cursor.state.reads targets (w f.key) (w' f.key)
        (savedCheckpoint cursor.state.feedCursors f.key) s p.size
        (shownLines E f (savedCheckpoint cursor.state.feedCursors f.key)) := by
  obtain ⟨p, ls, hpath, hscan⟩ := scanFeed_ok (hshow.shows f hf) (hs.checkpoints f.key) (scanOf_some h).2
  obtain ⟨hfp, hpg⟩ := (hshow.shows f hf).path p hpath
  have hstart := hs.startOf_le f.key
  have hlines : ls = shownLines E f (savedCheckpoint cursor.state.feedCursors f.key) := by
    have hsplit := linesOf_split (E := E) p (hstart.trans hfp.size_le)
    have hfound := hscan.lines
    rw [linesOf_grows hpg le_rfl, linesOf_grows hpg (hstart.trans hfp.size_le), hsplit] at hfound
    rw [shownLines, hpath]
    exact (List.append_cancel_left hfound).symm
  exact ⟨p, hpath, hfp, hpg, hlines ▸ hscan⟩

/-- The unread keys of a scan: those asked for that are found unread in a feed it read. -/
theorem scan_keys {w w' : Feeds} {G : List NudgeReadCoverage} {files : List BarbaroFeedFile}
    (hshow : ListingShows w w' files) {cursor : VirtualCursor}
    (hs : CursorSound epoch w G cursor.state) {keys : List RecordKey} {scan : ScopedScan E}
    (h : scanState epoch (some keys) cursor files = .ok scan) {rk : RecordKey} (hk : rk ∈ keys) :
    (rk ∈ scan.unreadRecordKeys → FoundUnread epoch files cursor.state rk) ∧
      (FoundUnread epoch files cursor.state rk → rk.feed ∉ scan.unavailableFeedKeys →
        rk ∈ scan.unreadRecordKeys) := by
  have hscan := scanState_ok hshow.unique hs.unique h
  have hmem : ∀ (f : BarbaroFeedFile) ls, rk ∈ recordKeys E (ls.filter (unreadLine epoch f.key
      cursor.state.reads)) ↔ ∃ t ∈ turnsOf E ls, isUnread epoch f.key cursor.state.reads t = true ∧
        recordKey t = rk := by
    intro f ls
    simp only [recordKeys, List.mem_filterMap, List.mem_filter, Option.map_eq_some_iff, mem_turnsOf]
    constructor
    · rintro ⟨line, ⟨hline, hu⟩, t, ht, rfl⟩
      rw [unreadLine, ht, Option.any_some] at hu
      exact ⟨t, ⟨line, hline, ht⟩, hu, rfl⟩
    · rintro ⟨t, ⟨line, hline, ht⟩, hu, rfl⟩
      exact ⟨line, ⟨hline, by rw [unreadLine, ht, Option.any_some, hu]⟩, t, ht, rfl⟩
  constructor
  · intro hrk
    obtain ⟨f, hf, s, hsome, hrk⟩ := (hscan.keys rk).1 hrk
    obtain ⟨p, -, -, -, hfeed⟩ := scanned_shown hshow hs hf hsome
    have hfound := ((hfeed.keys rk).1 hrk).2
    exact ⟨f, hf, (scanOf_some hsome).1, (hmem f _).1 hfound⟩
  · rintro ⟨f, hf, hpeer, t, ht, hu, rfl⟩ havail
    have hkey := isUnread_feed hu
    cases hsome : scanOf epoch cursor.state.reads (some keys) cursor.state.feedCursors f with
    | none => exact absurd ((hscan.unavailable _).2 (.inr ⟨f, hf, hkey, hpeer, hsome⟩)) havail
    | some s =>
      obtain ⟨p, -, -, -, hfeed⟩ := scanned_shown hshow hs hf hsome
      refine (hscan.keys _).2 ⟨f, hf, s, hsome, (hfeed.keys _).2 ⟨?_, (hmem f _).2 ⟨t, ht, hu, rfl⟩⟩⟩
      simp only [Option.any_some, decide_eq_true_eq]
      exact hk

/-! ## Moved positions -/

/-- Between the positions before and after, the feeds hold no unread line, and all records
that were collapsed. -/
def Moved (epoch : MembershipEpoch E) (w : Feeds) (reads : NudgeReadState)
    (saved saved' : List NudgeFeedCursor) (collapsed : List RecordKey) : Prop :=
  ∀ k, ∃ mid, linesOf E (w k) (startOf (savedCheckpoint saved' k)) =
      linesOf E (w k) (startOf (savedCheckpoint saved k)) ++ mid ∧
    (∀ line ∈ mid, unreadLine epoch k reads line = false) ∧
    ∀ rk ∈ collapsed, k = rk.feed → ∃ t ∈ turnsOf E mid, recordKey t = rk

theorem Moved.mono {w w' : Feeds} (hg : FeedsGrow w w') {reads : NudgeReadState}
    {saved saved' : List NudgeFeedCursor} {collapsed : List RecordKey}
    (h : Moved epoch w reads saved saved' collapsed)
    (hsaved : ∀ k, startOf (savedCheckpoint saved k) ≤ (w k).size)
    (hsaved' : ∀ k, startOf (savedCheckpoint saved' k) ≤ (w k).size) :
    Moved epoch w' reads saved saved' collapsed := by
  intro k
  rw [linesOf_grows (hg k) (hsaved k), linesOf_grows (hg k) (hsaved' k)]
  exact h k

/-- What was collapsed does not occur after the new positions. -/
theorem Moved.not_collapsed {w : Feeds} {reads : NudgeReadState} {saved saved' : List NudgeFeedCursor}
    {collapsed : List RecordKey} (h : Moved epoch w reads saved saved' collapsed)
    (hu : UniqueTurns E w) {rk : RecordKey}
    (hstart : startOf (savedCheckpoint saved' rk.feed) ≤ (w rk.feed).size) {t : Turn E}
    (ht : t ∈ turnsOf E (linesAfter E (w rk.feed) (savedCheckpoint saved' rk.feed)))
    (hid : rk.turnId = t.turnId) : rk ∉ collapsed := by
  intro hrk
  obtain ⟨mid, hmid, -, hcollapsed⟩ := h rk.feed
  obtain ⟨t', ht', rfl⟩ := hcollapsed rk hrk rfl
  have hpre : t' ∈ turnsOf E (linesOf E (w (recordKey t').feed)
      (startOf (savedCheckpoint saved' (recordKey t').feed))) := by
    rw [hmid, turnsOf_append]
    exact List.mem_append_right _ ht'
  exact hu.apart (linesOf_split _ hstart) hpre ht hid

/-- A record that is unread was not collapsed. -/
theorem Moved.unread_not_collapsed {w : Feeds} {reads : NudgeReadState}
    {saved saved' : List NudgeFeedCursor} {collapsed : List RecordKey}
    (h : Moved epoch w reads saved saved' collapsed) (hu : UniqueTurns E w) {t : Turn E}
    (hstart : startOf (savedCheckpoint saved' (recordKey t).feed) ≤ (w (recordKey t).feed).size)
    (ht : t ∈ turnsOf E (linesOf E (w (recordKey t).feed) (w (recordKey t).feed).size))
    (hunread : isUnread epoch (recordKey t).feed reads t = true) : recordKey t ∉ collapsed := by
  intro hrk
  obtain ⟨mid, hmid, hread, hcollapsed⟩ := h (recordKey t).feed
  obtain ⟨t', ht', hkey⟩ := hcollapsed _ hrk rfl
  have hall : t' ∈ turnsOf E (linesOf E (w (recordKey t).feed) (w (recordKey t).feed).size) := by
    rw [linesOf_split _ hstart, hmid, turnsOf_append, turnsOf_append]
    exact List.mem_append_left _ (List.mem_append_right _ ht')
  have hsame : t' = t := hu.eq hall ht (congrArg RecordKey.turnId hkey)
  obtain ⟨line, hline, hturn⟩ := mem_turnsOf.1 ht'
  have hfalse := hread line hline
  rw [unreadLine, hturn, Option.any_some, hsame, hunread] at hfalse
  exact absurd hfalse (by decide)

/-- **A scan moves the positions over read lines only.** -/
theorem scan_moved {w w' : Feeds} {G : List NudgeReadCoverage} {files : List BarbaroFeedFile}
    (hshow : ListingShows w w' files) {cursor : VirtualCursor}
    (hs : CursorSound epoch w G cursor.state) {targets : Option (List RecordKey)} {scan : ScopedScan E}
    (h : scanState epoch targets cursor files = .ok scan) :
    Moved epoch w' cursor.state.reads cursor.state.feedCursors scan.coveredFeedCursors
      scan.collapsedRecordKeys := by
  have hscan := scanState_ok hshow.unique hs.unique h
  intro k
  by_cases hex : ∃ f ∈ files, f.key = k ∧ ∃ s,
      scanOf epoch cursor.state.reads targets cursor.state.feedCursors f = some s
  · obtain ⟨f, hf, rfl, s, hsome⟩ := hex
    obtain ⟨n, ls, hfeed⟩ := scanned_feed hshow hs hf hsome
    refine ⟨readPrefix epoch f.key cursor.state.reads ls, ?_, ?_, ?_⟩
    · rw [(hscan.scanned f hf s hsome).2, hfeed.coveredLines]
    · intro line hline
      simpa using List.mem_takeWhile_imp hline
    · intro rk hrk hkey
      obtain ⟨f', hf', hkey', s', hsome', hrk⟩ := collapsed_scanned hshow hs h hrk
      have hsame : f' = f := List.inj_on_of_nodup_map hshow.unique hf' hf (hkey'.trans hkey.symm)
      subst hsame
      rw [hsome, Option.some.injEq] at hsome'
      subst hsome'
      rw [hfeed.collapsed, recordKeys, List.mem_filterMap] at hrk
      obtain ⟨line, hline, hrk⟩ := hrk
      obtain ⟨t, ht, rfl⟩ := Option.map_eq_some_iff.1 hrk
      exact ⟨t, mem_turnsOf.2 ⟨line, (List.mem_filter.1 hline).1, ht⟩, rfl⟩
  · have hnone : ∀ f ∈ files, f.key = k →
        scanOf epoch cursor.state.reads targets cursor.state.feedCursors f = none := fun f hf hk =>
      Option.eq_none_iff_forall_ne_some.2 fun s hsome => hex ⟨f, hf, hk, s, hsome⟩
    refine ⟨[], ?_, by simp, fun rk hrk hkey => ?_⟩
    · rw [hscan.kept k hnone, List.append_nil]
    · obtain ⟨f, hf, hfk, s, hsome, -⟩ := collapsed_scanned hshow hs h hrk
      exact absurd ⟨f, hf, hfk.trans hkey.symm, s, hsome⟩ hex

theorem filter_sublist_of_imp {α : Type} {p q : α → Bool} {l : List α}
    (h : ∀ a ∈ l, p a = true → q a = true) : (l.filter p).Sublist (l.filter q) := by
  have heq : l.filter p = (l.filter q).filter p := by
    rw [List.filter_filter]
    refine List.filter_congr fun a ha => ?_
    cases hp : p a with
    | false => rfl
    | true => rw [h a ha hp, Bool.and_self]
  rw [heq]
  exact List.filter_sublist

variable (epoch) in
/-- What moved positions and other entries do to the unread lines: none is added when the
acknowledged turns after the new positions stay acknowledged; they are the same when only
read lines were passed and nothing new is acknowledged. -/
theorem unreadLines_moved {w : Feeds} {s s' : NudgeCursorV3} {k : FeedKey}
    (hstart : startOf (savedCheckpoint s.feedCursors k) ≤ (w k).size)
    (hstart' : startOf (savedCheckpoint s'.feedCursors k) ≤ (w k).size) {mid : List (JsonlLine Json)}
    (hmid : linesOf E (w k) (startOf (savedCheckpoint s'.feedCursors k)) =
      linesOf E (w k) (startOf (savedCheckpoint s.feedCursors k)) ++ mid)
    (hkeep : ∀ t ∈ turnsOf E (linesAfter E (w k) (savedCheckpoint s'.feedCursors k)),
      eligible epoch k t = true → isReadRecordAcknowledged s.reads t = true →
        isReadRecordAcknowledged s'.reads t = true) :
    (unreadLines epoch w s' k).Sublist (unreadLines epoch w s k) ∧
      ((∀ line ∈ mid, unreadLine epoch k s.reads line = false) →
        (∀ t : Turn E, isReadRecordAcknowledged s'.reads t = true → isReadRecordAcknowledged s.reads t = true) →
        unreadLines epoch w s' k = unreadLines epoch w s k) := by
  have hafter := linesAfter_moved hstart hstart' hmid
  have himp : ∀ line ∈ linesAfter E (w k) (savedCheckpoint s'.feedCursors k),
      unreadLine epoch k s'.reads line = true → unreadLine epoch k s.reads line = true := by
    intro line hline hu
    obtain ⟨t, ht, hu⟩ := (Option.any_eq_true _ _).1 hu
    simp only [isUnread, Bool.and_eq_true, Bool.not_eq_true'] at hu
    have hack : isReadRecordAcknowledged s.reads t = false := by
      by_contra hack
      rw [hkeep t (mem_turnsOf.2 ⟨line, hline, ht⟩) hu.1 (by simpa using hack)] at hu
      exact absurd hu.2 (by decide)
    rw [unreadLine, ht, Option.any_some, isUnread, hu.1, hack]
    rfl
  rw [unreadLines, unreadLines, hafter, List.filter_append]
  constructor
  · have hsub := filter_sublist_of_imp himp
    exact hsub.trans (List.sublist_append_right _ _)
  · intro hread hback
    have hnone : mid.filter (unreadLine epoch k s.reads) = [] :=
      List.filter_eq_nil_iff.2 fun line hline => by simp [hread line hline]
    rw [hnone, List.nil_append]
    refine List.filter_congr fun line hline => ?_
    rw [Bool.eq_iff_iff]
    refine ⟨himp line hline, fun hu => ?_⟩
    obtain ⟨t, ht, hu⟩ := (Option.any_eq_true _ _).1 hu
    simp only [isUnread, Bool.and_eq_true, Bool.not_eq_true'] at hu
    have hack : isReadRecordAcknowledged s'.reads t = false := by
      by_contra hack
      rw [hback t (by simpa using hack)] at hu
      exact absurd hu.2 (by decide)
    rw [unreadLine, ht, Option.any_some, isUnread, hu.1, hack]
    rfl

/-! ## Counting while nothing is appended -/

/-- What a scan counts in a feed: its unread lines, if it was read. -/
def countedLines (epoch : MembershipEpoch E) (w : Feeds) (s : NudgeCursorV3) (unavailable : List FeedKey)
    (f : BarbaroFeedFile) : ℕ :=
  if f.sessionId = epoch.sessionId ∨ f.key ∈ unavailable then 0
  else (unreadLines epoch w s f.key).length

theorem fixed_count {w : Feeds} {G : List NudgeReadCoverage} {files : List BarbaroFeedFile}
    (hshow : ListingShows w w files) (cursor : VirtualCursor)
    (hs : CursorSound epoch w G cursor.state) {targets : Option (List RecordKey)} {scan : ScopedScan E}
    (h : scanState epoch targets cursor files = .ok scan) :
    scan.ready.unreadCount =
      (files.map (countedLines epoch w cursor.state scan.unavailableFeedKeys)).sum := by
  have hscan := scanState_ok hshow.unique hs.unique h
  rw [hscan.count]
  refine congrArg List.sum (List.map_congr_left fun f hf => ?_)
  rw [countedLines]
  cases hsome : scanOf epoch cursor.state.reads targets cursor.state.feedCursors f with
  | none =>
    have hskip : f.sessionId = epoch.sessionId ∨ f.key ∈ scan.unavailableFeedKeys := by
      by_cases hown : f.sessionId = epoch.sessionId
      · exact .inl hown
      · exact .inr ((hscan.unavailable _).2 (.inr ⟨f, hf, rfl, hown, hsome⟩))
    rw [if_pos hskip]
    rfl
  | some s =>
    obtain ⟨p, hpath, hfp, hpf, hfeed⟩ := scanned_shown hshow hs hf hsome
    have hread : ¬ (f.sessionId = epoch.sessionId ∨ f.key ∈ scan.unavailableFeedKeys) := by
      rintro (hown | hk)
      · exact (scanOf_some hsome).1 hown
      · rcases (hscan.unavailable _).1 hk with ⟨-, hmissing⟩ | ⟨f', hf', hk', -, hnone⟩
        · exact hmissing (List.mem_map_of_mem hf)
        · rw [List.inj_on_of_nodup_map hshow.unique hf' hf hk', hsome] at hnone
          cases hnone
    have hbytes : p.bytes = (w f.key).bytes :=
      hfp.bytes.eq_of_length_le hpf.bytes.length_le |>.symm
    rw [if_neg hread, unreadLines, ← List.countP_eq_length_filter, ← linesAfter_congr hbytes]
    have hcount := hfeed.count
    rw [shownLines, hpath] at hcount
    exact hcount

end

end Barbaro
