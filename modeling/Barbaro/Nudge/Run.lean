import Barbaro.Nudge.ReadSpec
import Barbaro.Nudge.Sound

/-!
# Runs of hook transactions

The cursor of one recipient in one membership, while the peer feeds grow: hooks run one
transaction after the other, in any order, each with scans of its own.

* `Transaction`: one transaction, with what it delivers.
* `Run`: the states a sequence of transactions reaches, with all deliveries so far.
* `Transaction.sound`, `Run.sound`: every state reached is sound.
* `unread_never_lost`: what a scan of such a state counts.
* `unavailable_uncounted`: a line of a feed that cannot be opened is not counted.
-/

namespace Barbaro

section
variable {E : Host} (epoch : MembershipEpoch E)
  (verify : ReadQuery → DeliveredEnvelope → Except Failure Bool)

/-- The cursor after an update. -/
def written {α : Type} (current : Option NudgeCursor) (u : HookCursorUpdate α) : Option NudgeCursor :=
  (u.state.map NudgeCursor.v3).or current

/-- The deliveries of a commit. -/
def deliveredBy (state : NudgeCursorV3) (invocation : HookReadInvocation) (options : HookReadOptions E)
    (modelText : JsString) (result : HookReadCommit) : List NudgeReadCoverage :=
  if result.committed then committedCoverage state invocation options modelText else []

/-- One transaction that succeeds: the feeds and the cursor before and after it, and what
it delivers. One that fails leaves the cursor as it is. -/
inductive Transaction : Feeds → Feeds → Option NudgeCursor → Option NudgeCursor →
    List NudgeReadCoverage → Prop
  | claim {w w' : Feeds} {current : Option NudgeCursor} {files : List BarbaroFeedFile}
      (hshow : ListingShows w w' files) {options : HookNudgeClaimOptions}
      {u : HookCursorUpdate (HookNudgeClaim E)}
      (h : claimHookNudge epoch files current options = .ok u) :
      Transaction w w' current (written current u) []
  | rollback {w : Feeds} {current : Option NudgeCursor} {receipt : HookStopClaimRollback} {now : ℤ}
      {u : HookCursorUpdate Bool} (h : rollbackHookStopClaim E current receipt now = .ok u) :
      Transaction w w current (written current u) []
  | reserve {w w' : Feeds} {current : Option NudgeCursor} {files : List BarbaroFeedFile}
      (hshow : ListingShows w w' files) {invocation : HookReadInvocation}
      {options : HookReadOptions E} {nonce : JsString} {u : HookCursorUpdate HookReadReservation}
      (h : reserveHookRead epoch files current invocation options nonce = .ok u) :
      Transaction w w' current (written current u) []
  | stage {w w' : Feeds} {current : Option NudgeCursor} {files : List BarbaroFeedFile}
      (hshow : ListingShows w w' files) {invocation : HookReadInvocation}
      {options : HookReadOptions E} {stdout : JsString} {u : HookCursorUpdate Bool}
      (h : stageHookReadOutput epoch files current invocation options stdout = .ok u) :
      Transaction w w' current (written current u) []
  | commit {w w₀ w₁ w₂ : Feeds} {current : Option NudgeCursor}
      {files filesBefore filesAfter : List BarbaroFeedFile} (hshow : ListingShows w w₀ files)
      (hbefore : ListingShows w₀ w₁ filesBefore) (hafter : ListingShows w₁ w₂ filesAfter)
      {invocation : HookReadInvocation} {options : HookReadOptions E} {modelText : JsString}
      {v : VirtualCursor} (hv : virtualCursor epoch current = .ok v)
      {u : HookCursorUpdate HookReadCommit}
      (h : commitHookReadOutput verify epoch files filesBefore filesAfter current invocation options
        modelText = .ok u) :
      Transaction w w₂ current (written current u)
        (deliveredBy v.state invocation options modelText u.result)
  | discard {w w' : Feeds} {current : Option NudgeCursor} {files : List BarbaroFeedFile}
      (hshow : ListingShows w w' files) {toolUseId : JsString} {options : HookReadOptions E}
      {u : HookCursorUpdate Unit}
      (h : discardHookRead epoch files current toolUseId options = .ok u) :
      Transaction w w' current (written current u) []

/-- The feeds, the cursor and all deliveries a sequence of transactions reaches, from the
beginning of the membership. -/
inductive Run : Feeds → Option NudgeCursor → List NudgeReadCoverage → Prop
  | start (w : Feeds) {current : Option NudgeCursor}
      (h : ∀ c, current = some c → sameMembership epoch c = false) : Run w current []
  | grow {w w' : Feeds} {current : Option NudgeCursor} {G : List NudgeReadCoverage}
      (hr : Run w current G) (h : FeedsGrow w w') : Run w' current G
  | step {w w' : Feeds} {current next : Option NudgeCursor} {G D : List NudgeReadCoverage}
      (hr : Run w current G) (h : Transaction epoch verify w w' current next D) : Run w' next (G ++ D)

variable {epoch verify}

/-! ## One transaction -/

/-- The store is sound after an update when what it writes is. -/
theorem written_sound {α : Type} {w w' : Feeds} {G : List NudgeReadCoverage}
    {current : Option NudgeCursor} (hs : StoreSound epoch w G current) (hw : FeedsGrow w w')
    {u : HookCursorUpdate α} (h : ∀ s, u.state = some s → StoreSound epoch w' G (some (.v3 s))) :
    StoreSound epoch w' G (written current u) := by
  cases hu : u.state with
  | none =>
    rw [written, hu]
    exact hs.mono hw (.refl G)
  | some s =>
    rw [written, hu]
    exact h s hu

/-- A state with the pending reads of its scan changed. -/
theorem pending_sound {w w' : Feeds} {G : List NudgeReadCoverage} {current : Option NudgeCursor}
    (hs : StoreSound epoch w G current) (hw : FeedsGrow w w') {files : List BarbaroFeedFile}
    {scan : ScopedScan E} (hscan : scanUnread epoch none current files = .ok scan) {s : NudgeCursorV3}
    (h : PendingOnly scan.cursor.state s) : StoreSound epoch w' G (some (.v3 s)) := by
  obtain ⟨v, hv, -, hcursor⟩ := scanUnread_ok hscan
  rw [hcursor] at h
  exact storeSound_v3 (((hs v hv).mono hw (.refl G)).congr h.positions.1 h.positions.2)

/-- What a commit writes. -/
theorem commit_sound {w w₁ w₂ : Feeds} {G : List NudgeReadCoverage}
    {filesBefore filesAfter : List BarbaroFeedFile} (hbefore : ListingShows w w₁ filesBefore)
    (hafter : ListingShows w₁ w₂ filesAfter) {invocation : HookReadInvocation}
    {options : HookReadOptions E} {modelText : JsString} {state : NudgeCursorV3}
    (hs : CursorSound epoch w G state) {pending : NudgePendingRead} {u : HookCursorUpdate HookReadCommit}
    (h : CommitMade epoch filesBefore filesAfter invocation options modelText state pending u)
    {s : NudgeCursorV3} (hu : u.state = some s) :
    CursorSound epoch w₂ (G ++ deliveredBy state invocation options modelText u.result) s := by
  have hmono := hs.mono (hbefore.grows.trans hafter.grows)
    ((Within.refl G).append (deliveredBy state invocation options modelText u.result))
  have hrefused : u = refused state pending.nonce →
      CursorSound epoch w₂ (G ++ deliveredBy state invocation options modelText u.result) s := by
    rintro rfl
    cases hu
    exact hmono.congr rfl rfl
  rcases h.outcome with h | ⟨preview, hpreview, h⟩
  · exact hrefused h
  · have hp := preview_sound hbefore hafter hs hpreview
    rcases applyPreview_ok h with ⟨-, hnone, -, -⟩ | ⟨-, -, hcommitted, -, -, hstate⟩ | ⟨-, -, h⟩ |
      ⟨turn, updatedAt, -, -, -, -, -, hcommitted, -, -, -, hstate⟩
    · rw [hnone] at hu; cases hu
    · rw [hstate] at hu
      cases hu
      rw [deliveredBy, if_pos hcommitted]
      exact hp.congr rfl rfl
    · exact hrefused h
    · rw [hstate] at hu
      cases hu
      rw [deliveredBy, if_pos hcommitted]
      exact hp.congr rfl rfl

/-- **One transaction** keeps the cursor sound for what has been delivered after it. -/
theorem Transaction.sound {w w' : Feeds} {current next : Option NudgeCursor}
    {G D : List NudgeReadCoverage} (h : Transaction epoch verify w w' current next D)
    (hs : StoreSound epoch w G current) : StoreSound epoch w' (G ++ D) next := by
  cases h with
  | claim hshow h =>
    rw [List.append_nil]
    refine written_sound hs hshow.grows fun s hu => ?_
    obtain ⟨scan, start, state, turn, timestamp, hscan, hmade⟩ := claimHookNudge_ok h
    obtain ⟨v, hv, hstate, hcursor⟩ := scanUnread_ok hscan
    have hv := hs v hv
    rcases hmade.positions hu with ⟨hf, hc⟩ | ⟨hf, hc⟩
    · rw [hcursor] at hf hc
      exact storeSound_v3 ((hv.mono hshow.grows (.refl G)).congr hf hc)
    · rw [hcursor] at hf hc
      exact storeSound_v3 ((scan_sound hshow hv hstate hv.coverage_ok hv.delivered).congr hf hc)
  | rollback h =>
    rw [List.append_nil]
    refine written_sound hs (.refl w) fun s hu => ?_
    rcases rollback_ok h with hnone | ⟨c, timestamp, rfl, -, -, hstate⟩
    · rw [hnone] at hu; cases hu
    · rw [hstate] at hu
      cases hu
      by_cases hm : sameMembership epoch (.v3 c) = true
      · have hv : virtualCursor epoch (some (.v3 c)) =
            .ok { state := c, reset := false, existed := true } := by
          rw [virtualCursor, Option.filter_some_pos hm]
        exact storeSound_v3 ((hs _ hv).congr rfl rfl)
      · exact storeSound_other (by simpa [sameMembership, NudgeCursor.workstreamId,
          NudgeCursor.membershipFrom] using hm)
  | reserve hshow h =>
    rw [List.append_nil]
    refine written_sound hs hshow.grows fun s hu => ?_
    obtain ⟨scan, turn, createdAt, expiresAt, hscan, -, -, -, -, -, rfl⟩ := reserve_ok h hu
    exact pending_sound hs hshow.grows hscan ⟨_, _, rfl⟩
  | stage hshow h =>
    rw [List.append_nil]
    refine written_sound hs hshow.grows fun s hu => ?_
    obtain ⟨scan, pending, output, updatedAt, hscan, -, -, -, rfl⟩ := stage_ok h hu
    exact pending_sound hs hshow.grows hscan ⟨_, _, rfl⟩
  | commit hshow hbefore hafter hv h =>
    refine written_sound (hs.mono (.refl w) ((Within.refl G).append _))
      (hshow.grows.trans (hbefore.grows.trans hafter.grows)) fun s hu => ?_
    obtain ⟨scan, hscan, hmade⟩ := commit_ok h
    obtain ⟨v', hv', -, hcursor⟩ := scanUnread_ok hscan
    rw [hv] at hv'
    cases hv'
    rcases hmade with rfl | ⟨pending, hmade⟩
    · cases hu
    · rw [hcursor] at hmade
      exact storeSound_v3 (commit_sound hbefore hafter ((hs _ hv).mono hshow.grows (.refl G)) hmade hu)
  | discard hshow h =>
    rw [List.append_nil]
    refine written_sound hs hshow.grows fun s hu => ?_
    obtain ⟨scan, pending, hscan, -, rfl⟩ := discard_ok h hu
    exact pending_sound hs hshow.grows hscan ⟨pending, scan.cursor.state.updatedAt, rfl⟩

/-- **Every state of a run is sound.** -/
theorem Run.sound {w : Feeds} {current : Option NudgeCursor} {G : List NudgeReadCoverage}
    (h : Run epoch verify w current G) : StoreSound epoch w G current := by
  induction h with
  | start w h => exact storeSound_start h
  | grow _ h ih => exact ih.mono h (.refl _)
  | step _ h ih => exact h.sound ih

/-! ## What is counted -/

/-- The lines a scan counts in a feed it could read, of the lines it found: all eligible
ones but those that have been delivered completely. -/
structure CountsLines (epoch : MembershipEpoch E) (G : List NudgeReadCoverage) (k : FeedKey)
    (f g : FileState) (counted : List (JsonlLine Json)) : Prop where
  exists_found : ∃ n, f.size ≤ n ∧ n ≤ g.size ∧ counted.Sublist (linesOf E g n) ∧
    ∀ line ∈ linesOf E g n, ∀ t, turnOf E line = some t → eligible epoch k t = true →
      line ∈ counted ∨ FullyCovered G t

/-- The lines of a scanned feed that are counted. -/
theorem countsLines {w w' : Feeds} {G : List NudgeReadCoverage} {files : List BarbaroFeedFile}
    (hshow : ListingShows w w' files) {cursor : VirtualCursor}
    (hs : CursorSound epoch w G cursor.state) {targets : Option (List RecordKey)}
    {f : BarbaroFeedFile} (hf : f ∈ files) {s : FeedScan E}
    (h : scanOf epoch cursor.state.reads targets cursor.state.feedCursors f = some s) :
    ∃ counted, counted.length = s.unreadCount ∧
      CountsLines epoch G f.key (w f.key) (w' f.key) counted := by
  obtain ⟨n, ls, hfeed⟩ := scanned_feed hshow hs hf h
  refine ⟨ls.filter (unreadLine epoch f.key cursor.state.reads), ?_, ⟨n, hfeed.seen, hfeed.within, ?_, ?_⟩⟩
  · rw [hfeed.count, List.countP_eq_length_filter]
  · rw [hfeed.lines]
    exact List.filter_sublist.trans (List.sublist_append_right _ _)
  · intro line hline t ht he
    rw [hfeed.lines] at hline
    rcases List.mem_append.1 hline with hline | hline
    · rw [linesOf_grows (hshow.grows f.key) (hs.startOf_le f.key)] at hline
      exact .inr (hs.passed f.key line hline t ht he)
    · by_cases hu : unreadLine epoch f.key cursor.state.reads line = true
      · exact .inl (List.mem_filter.2 ⟨hline, hu⟩)
      · have hack : isReadRecordAcknowledged cursor.state.reads t = true := by
          simpa [unreadLine, ht, isUnread, he] using hu
        exact .inr (((acknowledged_iff hs.coverage_ok).1 hack).mono hs.delivered)

/-- What is collapsed are records of feeds that were scanned. -/
theorem collapsed_scanned {w w' : Feeds} {G : List NudgeReadCoverage} {files : List BarbaroFeedFile}
    (hshow : ListingShows w w' files) {cursor : VirtualCursor}
    (hs : CursorSound epoch w G cursor.state) {targets : Option (List RecordKey)} {scan : ScopedScan E}
    (h : scanState epoch targets cursor files = .ok scan) {k : RecordKey}
    (hk : k ∈ scan.collapsedRecordKeys) :
    ∃ f ∈ files, f.key = ⟨k.provider, k.sessionId⟩ ∧ ∃ s,
      scanOf epoch cursor.state.reads targets cursor.state.feedCursors f = some s ∧
        k ∈ s.collapsedRecordKeys := by
  have hscan := scanState_ok hshow.unique hs.unique h
  obtain ⟨f, hf, s, hsome, hk⟩ := (hscan.collapsed k).1 hk
  obtain ⟨n, ls, hfeed⟩ := scanned_feed hshow hs hf hsome
  refine ⟨f, hf, ?_, s, hsome, hk⟩
  rw [hfeed.collapsed, recordKeys, List.mem_filterMap] at hk
  obtain ⟨line, hline, hk⟩ := hk
  obtain ⟨t, ht, rfl⟩ := Option.map_eq_some_iff.1 hk
  have hack := (List.mem_filter.1 hline).2
  simp only [acknowledgedLine, ht, Option.any_some, Bool.and_eq_true] at hack
  obtain ⟨h1, h2, -⟩ := eligible_iff.1 hack.1
  rw [recordKey, h1, h2]

/-- An unavailable feed keeps its position and its pending coverage. -/
theorem unavailable_kept {w w' : Feeds} {G : List NudgeReadCoverage} {files : List BarbaroFeedFile}
    (hshow : ListingShows w w' files) {cursor : VirtualCursor}
    (hs : CursorSound epoch w G cursor.state) {targets : Option (List RecordKey)} {scan : ScopedScan E}
    (h : scanState epoch targets cursor files = .ok scan) {k : FeedKey}
    (hk : k ∈ scan.unavailableFeedKeys) :
    savedCheckpoint scan.coveredFeedCursors k = savedCheckpoint cursor.state.feedCursors k ∧
      ∀ e ∈ cursor.state.reads.coverage, coverageFeedKey e = k →
        e ∈ (collapseReadCursor cursor.state scan).reads.coverage := by
  have hscan := scanState_ok hshow.unique hs.unique h
  -- the keys of a listing are unique, so a feed is unavailable or scanned, not both
  have hnone : ∀ f ∈ files, f.key = k →
      scanOf epoch cursor.state.reads targets cursor.state.feedCursors f = none := by
    intro f hf hfk
    rcases (hscan.unavailable k).1 hk with ⟨-, hmissing⟩ | ⟨f', hf', hk', -, hnone⟩
    · exact absurd (List.mem_map_of_mem hf) (hfk ▸ hmissing)
    · have hsame := List.inj_on_of_nodup_map hshow.unique hf hf' (hfk.trans hk'.symm)
      rw [hsame]
      exact hnone
  refine ⟨hscan.kept k hnone, fun e he hek => ?_⟩
  simp only [collapseReadCursor, List.mem_filter, decide_eq_true_eq]
  refine ⟨he, fun hc => ?_⟩
  obtain ⟨f, hf, hfk, s, hsome, -⟩ := collapsed_scanned hshow hs h hc
  rw [hnone f hf (hfk.trans hek)] at hsome
  cases hsome

/-- **No unread update is lost.** In every state of a run, a scan counts every eligible line
of a feed it can read unless one of its texts has been delivered completely. A feed it
cannot read is named, makes the count a lower bound, and keeps its position and its pending
coverage. No position ever passes an eligible line that has not been delivered. -/
theorem unread_never_lost {w w' : Feeds} {current : Option NudgeCursor} {G : List NudgeReadCoverage}
    (hrun : Run epoch verify w current G) {files : List BarbaroFeedFile}
    (hshow : ListingShows w w' files) {targets : Option (List RecordKey)} {scan : ScopedScan E}
    (h : scanUnread epoch targets current files = .ok scan) :
    (∃ counted : FeedKey → List (JsonlLine Json),
      scan.ready.unreadCount = (files.map (fun f => (counted f.key).length)).sum ∧
      ∀ f ∈ files, f.sessionId ≠ epoch.sessionId →
        f.key ∈ scan.unavailableFeedKeys ∨
          CountsLines epoch G f.key (w f.key) (w' f.key) (counted f.key)) ∧
    (∀ k ∈ scan.unavailableFeedKeys, scan.ready.coverage.isSome = true ∧
      savedCheckpoint (collapseReadCursor scan.cursor.state scan).feedCursors k =
        savedCheckpoint scan.cursor.state.feedCursors k ∧
      ∀ e ∈ scan.cursor.state.reads.coverage, coverageFeedKey e = k →
        e ∈ (collapseReadCursor scan.cursor.state scan).reads.coverage) ∧
    ∀ k c, savedCheckpoint (collapseReadCursor scan.cursor.state scan).feedCursors k = some c →
      LinesDelivered epoch k G (linesOf E (w' k) c.byteOffset) := by
  obtain ⟨v, hv, hstate, rfl⟩ := scanUnread_ok h
  have hs := hrun.sound _ hv
  have hscan := scanState_ok hshow.unique hs.unique hstate
  have hsound := scan_sound hshow hs hstate hs.coverage_ok hs.delivered
  refine ⟨?_, fun k hk => ⟨?_, unavailable_kept hshow hs hstate hk⟩, fun k c hc => ?_⟩
  · -- per feed, the lines it counts; a feed that was not scanned counts none
    have hex : ∀ k, ∃ ls : List (JsonlLine Json), ∀ f ∈ files, f.key = k →
        ls.length =
          countOf (scanOf epoch scan.cursor.state.reads targets scan.cursor.state.feedCursors f) ∧
        (f.sessionId ≠ epoch.sessionId →
          f.key ∈ scan.unavailableFeedKeys ∨
            CountsLines epoch G f.key (w f.key) (w' f.key) ls) := by
      intro k
      by_cases hk : ∃ f ∈ files, f.key = k
      · obtain ⟨f, hf, rfl⟩ := hk
        have huniq : ∀ f' ∈ files, f'.key = f.key → f' = f := fun f' hf' he =>
          List.inj_on_of_nodup_map hshow.unique hf' hf he
        cases hr : scanOf epoch scan.cursor.state.reads targets scan.cursor.state.feedCursors f with
        | none =>
          refine ⟨[], fun f' hf' he => ?_⟩
          rw [huniq f' hf' he, hr]
          exact ⟨rfl, fun hpeer => .inl ((hscan.unavailable f.key).2 (.inr ⟨f, hf, rfl, hpeer, hr⟩))⟩
        | some s =>
          obtain ⟨counted, hlen, hcounts⟩ := countsLines hshow hs hf hr
          refine ⟨counted, fun f' hf' he => ?_⟩
          rw [huniq f' hf' he, hr]
          exact ⟨hlen, fun _ => .inr hcounts⟩
      · exact ⟨[], fun f hf he => absurd ⟨f, hf, he⟩ hk⟩
    choose counted hcounted using hex
    refine ⟨counted, ?_, fun f hf => (hcounted f.key f hf rfl).2⟩
    rw [hscan.count]
    exact congrArg List.sum (List.map_congr_left fun f hf => ((hcounted f.key f hf rfl).1).symm)
  · exact hscan.incomplete.2 (List.ne_nil_of_mem hk)
  · have hp := hsound.passed k
    rw [hc] at hp
    exact hp

end

/-! ## One peer with one turn -/

/-- A time on the first day of the year. -/
def sampleTime (text : String) : JsString := js "2026-01-01" ++ js text

/-- Times in the first minutes of a membership. -/
def sampleDates : List (ℤ × JsString) :=
  [(1767225600000, sampleTime "T00:00:00.000Z"), (1767225601000, sampleTime "T00:00:01.000Z"),
    (1767225602000, sampleTime "T00:00:02.000Z"), (1767225902000, sampleTime "T00:05:02.000Z")]

/-- The id of a kind with a number. -/
def sampleId (tag : String) (n : ℕ) : JsString := js tag ++ 95 :: hexText 32 n

/-- The first session in the third workstream. -/
def sampleEpoch (E : Host) (h : (E.dateParse (sampleTime "T00:00:00.000Z")).isSome = true) :
    MembershipEpoch E where
  provider := .codex
  sessionId := sampleId "ses" 1
  workstreamId := sampleId "ws" 3
  start := sampleTime "T00:00:00.000Z"
  sessionId_ok := by decide
  workstreamId_ok := by decide
  start_ok := h

/-- A turn without a response that ended in the first second of the membership. -/
def peerTurn (request : String) : Json :=
  .obj [
    (js "actions", .arr []),
    (js "agent_id", .str (js "a")),
    (js "ended_at", .str (sampleTime "T00:00:01.000Z")),
    (js "evidence_refs", .arr []),
    (js "outcome", .str (js "success")),
    (js "provider", .str (js "codex")),
    (js "request", .obj [
      (js "fidelity", .str (js "verbatim")),
      (js "redactions", .arr []),
      (js "text", .str (js request)),
      (js "truncated", .bool false)]),
    (js "schema", .str (js "barbaro.turn.v1")),
    (js "sequence", .num (.int 1)),
    (js "session_id", .str (sampleId "ses" 2)),
    (js "source_refs", .arr []),
    (js "started_at", .str (sampleTime "T00:00:00.000Z")),
    (js "subagents", .obj [
      (js "by_role", .arr []),
      (js "changed_paths", .arr []),
      (js "evidence_refs", .arr []),
      (js "outcomes", .obj []),
      (js "total", .num (.int 0))]),
    (js "turn_id", .str (sampleId "turn" 1)),
    (js "workstream_id", .str (sampleId "ws" 3))]

/-- The feed of the peer, with this turn on its one line. -/
def peerFile (request : String) : FileState where
  dev := 1
  ino := 2
  birthtimeNs := 3
  mtimeNs := 4
  bytes := utf8 (peerTurn request).render ++ [LF]

def peerFeeds (request : String) : Feeds := fun _ => peerFile request

/-- A feed file that does not change while it is scanned. -/
def BarbaroFeedFile.still (provider sessionId : JsString) (hp : isProvider provider = true)
    (hs : isSessionId sessionId = true) (f : FileState) : BarbaroFeedFile where
  provider := provider
  sessionId := sessionId
  provider_ok := hp
  sessionId_ok := hs
  path := .file f
  scan start stop := ⟨.file f, [(f.bytes.drop start).take (stop - start)], f⟩
  anchor _ := ⟨.file f, [], f⟩

theorem still_shows (provider sessionId : JsString) (hp : isProvider provider = true)
    (hs : isSessionId sessionId = true) (f : FileState) :
    FeedShows f f (.still provider sessionId hp hs f) := by
  have hgrows : ∀ p, Opened.file f = .file p → Grows f p ∧ Grows p f := by
    rintro p ⟨⟩
    exact ⟨.refl f, .refl f⟩
  refine ⟨hgrows, fun p hp start stop => ?_, fun p hp offset => ?_⟩
  · cases hp
    exact ⟨hgrows, .refl f, by simp [BarbaroFeedFile.still]⟩
  · cases hp
    exact ⟨hgrows, .refl f, by simp [BarbaroFeedFile.still]⟩

def peerFeed (request : String) : BarbaroFeedFile :=
  .still (js "codex") (sampleId "ses" 2) (by decide) (by decide)
    (peerFile request)

/-- The same feed when it may not be opened. -/
def lockedFeed (request : String) : BarbaroFeedFile := { peerFeed request with path := .refused "EACCES" }

theorem peerFeed_shows (request : String) :
    ListingShows (peerFeeds request) (peerFeeds request) [peerFeed request] := by
  refine ⟨.refl _, List.nodup_singleton _, fun f hf => ?_⟩
  rw [List.mem_singleton.1 hf]
  exact still_shows _ _ _ _ _

theorem lockedFeed_shows (request : String) :
    ListingShows (peerFeeds request) (peerFeeds request) [lockedFeed request] := by
  refine ⟨.refl _, List.nodup_singleton _, fun f hf => ?_⟩
  rw [List.mem_singleton.1 hf]
  exact ⟨by rintro p ⟨⟩, by rintro p ⟨⟩, by rintro p ⟨⟩⟩

/-- The digest of the last 64 bytes of the feed. -/
def sampleHashes : List (Bytes × ℕ) :=
  [(utf8 (hexText 7 1 ++ js "\",\"workstream_id\":\"" ++ sampleId "ws" 3 ++ js "\"\x7d\n"),
    0xcb8d4e09c2a356064b23cd47e358b9905212245ffa83b6e0e6bf5a18fe7aa34c)]

theorem sampleDates_ok : ∀ e ∈ sampleDates, (sampleDates.find? (fun d => d.2 == e.2)).map Prod.fst = some e.1 ∧
    0 < e.2.length ∧ byteLength e.2 ≤ 64 := by
  decide

def sampleHost : Host := .ofTables sampleHashes sampleDates sampleDates_ok

def helloEpoch : MembershipEpoch sampleHost := sampleEpoch sampleHost (by decide)

/-- No delivery is verified. -/
def verifyNothing : ReadQuery → DeliveredEnvelope → Except Failure Bool := fun _ _ => .ok false

theorem peerRun (request : String) : Run helloEpoch verifyNothing (peerFeeds request) none [] :=
  .start _ (by rintro c ⟨⟩)

/-- The line of the peer is counted. -/
theorem unread_never_lost_peer : ∃ scan, scanUnread helloEpoch none none [peerFeed "hi"] = .ok scan ∧
    scan.ready.unreadCount = 1 ∧
    ∃ counted : FeedKey → List (JsonlLine Json),
      scan.ready.unreadCount = ([peerFeed "hi"].map (fun f => (counted f.key).length)).sum := by
  have hcount : (scanUnread helloEpoch none none [peerFeed "hi"]).toOption.map
      (fun s => s.ready.unreadCount) = some 1 := by decide +kernel
  obtain ⟨scan, hscan, hone⟩ := Option.map_eq_some_iff.1 hcount
  have hok := Outcome.toOption_some.1 hscan
  obtain ⟨counted, hsum, -⟩ := (unread_never_lost (peerRun "hi") (peerFeed_shows "hi") hok).1
  exact ⟨scan, hok, hone, counted, hsum⟩

/-- The feed may not be opened for a moment: the scan succeeds, and neither counts its line
nor has it been delivered. -/
theorem unavailable_uncounted : Run helloEpoch verifyNothing (peerFeeds "hi") none [] ∧
    ListingShows (peerFeeds "hi") (peerFeeds "hi") [lockedFeed "hi"] ∧
    (∃ scan, scanUnread helloEpoch none none [lockedFeed "hi"] = .ok scan ∧
      scan.ready.unreadCount = 0) ∧
    ∃ line ∈ linesOf sampleHost (peerFile "hi") (peerFile "hi").size, ∃ t,
      turnOf sampleHost line = some t ∧ eligible helloEpoch (lockedFeed "hi").key t = true ∧
        ¬ FullyCovered [] t := by
  refine ⟨peerRun "hi", lockedFeed_shows "hi", ?_, ?_⟩
  · have hcount : (scanUnread helloEpoch none none [lockedFeed "hi"]).toOption.map
        (fun s => s.ready.unreadCount) = some 0 := by decide +kernel
    obtain ⟨scan, hscan, hzero⟩ := Option.map_eq_some_iff.1 hcount
    exact ⟨scan, Outcome.toOption_some.1 hscan, hzero⟩
  · have hline : ∃ line ∈ linesOf sampleHost (peerFile "hi") (peerFile "hi").size,
        (turnOf sampleHost line).any (eligible helloEpoch (lockedFeed "hi").key) = true := by
      decide +kernel
    obtain ⟨line, hmem, hany⟩ := hline
    obtain ⟨t, ht, he⟩ := (Option.any_eq_true _ _).1 hany
    refine ⟨line, hmem, t, ht, he, ?_⟩
    rintro ⟨field, -, ⟨e, he, -⟩, -⟩
    exact absurd he List.not_mem_nil

end Barbaro
