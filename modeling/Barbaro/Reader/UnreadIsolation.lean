import Barbaro.Reader.UnreadBatch

/-!
# One member's sources and another's summary

Whatever the cursors and the feeds hold, the batch comes as far as the state of each member:
a failure while it reads is noted with those it is about. A summary then shows the newest
turn that is unread, within a budget, and there the batch does not catch what goes wrong.

* `gather_recipients`: each member that is shown keeps its place, and the turn it is given is
  an unread record of a feed.
* `batch_returns`: the batch returns exactly if each turn it is to show can be shown.
* `wide_turn_blanks_batch`: one wide turn takes the summaries of all.
-/

namespace Barbaro.UnreadBatch

section
variable {E : Host}

/-! ## What reading makes of a member -/

/-- The turn is a record on a line of the feed, and unread for the member. -/
structure IsUnread (feed : FeedFile) (r : MutableRecipient E) (turn : Turn E) : Prop where
  line : ∃ line, feedTurn E feed line = some turn
  workstream : turn.workstreamId = some r.key.workstreamId
  membership : (E.dateParse r.key.membershipFrom).any (fun start => turn.endedAtMs ≤ start) = false
  unacknowledged : recordAcknowledged E r.cursor turn = .ok false

/-- A member keeps its key and its cursor, and what it is given to show is unread in a feed. -/
structure Continues (feeds : List FeedFile) (r r' : MutableRecipient E) : Prop where
  key : r'.key = r.key
  cursor : r'.cursor = r.cursor
  newest : ∀ turn, r'.newest = some turn → r.newest = some turn ∨ ∃ feed ∈ feeds, IsUnread feed r turn

variable {feeds : List FeedFile}

theorem Continues.refl (r : MutableRecipient E) : Continues feeds r r := ⟨rfl, rfl, fun _ h => .inl h⟩

theorem Continues.trans {r r' r'' : MutableRecipient E} (h : Continues feeds r r')
    (h' : Continues feeds r' r'') : Continues feeds r r'' := by
  refine ⟨h'.key.trans h.key, h'.cursor.trans h.cursor, fun turn hturn => ?_⟩
  rcases h'.newest turn hturn with hturn | ⟨feed, hfeed, hunread⟩
  · exact h.newest turn hturn
  · refine .inr ⟨feed, hfeed, hunread.line, ?_, ?_, ?_⟩
    · rw [hunread.workstream, h.key]
    · rw [← h.key]
      exact hunread.membership
    · rw [← h.cursor]
      exact hunread.unacknowledged

theorem noteIssue_continues (issue : ReaderUnreadIssue) (coverage : CoverageState) (r : MutableRecipient E) :
    Continues feeds r (noteIssue issue coverage r) := by
  unfold noteIssue
  split
  · exact .refl r
  · exact ⟨rfl, rfl, fun _ h => .inl h⟩

theorem newer_some {latest : Option (Turn E)} {turn t : Turn E} (h : newer latest turn = some t) :
    t = turn ∨ latest = some t := by
  unfold newer at h
  split at h
  · cases h
    exact .inl rfl
  · split at h
    · cases h
      exact .inl rfl
    · exact .inr h

theorem countTurn_continues {feed : FeedFile} {line : Bytes} {turn : Turn E} {r r' : MutableRecipient E}
    (hfeed : feed ∈ feeds) (hline : feedTurn E feed line = some turn) (h : countTurn E turn r = .ok r') :
    Continues feeds r r' := by
  unfold countTurn at h
  split at h
  · cases h
    exact .refl r
  · next hskip =>
    rw [not_or, not_or, not_not] at hskip
    rcases hread : recordAcknowledged E r.cursor turn with f | _ | _
    · rw [hread] at h
      cases h
    · rw [hread] at h
      cases h
      refine ⟨rfl, rfl, fun t ht => ?_⟩
      rcases newer_some ht with rfl | ht
      · exact .inr ⟨feed, hfeed, ⟨line, hline⟩, hskip.2.1, Bool.eq_false_iff.2 hskip.2.2, hread⟩
      · exact .inl ht
    · rw [hread] at h
      cases h
      exact .refl r

/-! ## What reading makes of all of them -/

/-- One after the other, the members continue. -/
def RecipientsContinue (feeds : List FeedFile) (rs rs' : List (MutableRecipient E)) : Prop :=
  List.Forall₂ (Continues feeds) rs rs'

theorem RecipientsContinue.refl (rs : List (MutableRecipient E)) : RecipientsContinue feeds rs rs :=
  List.forall₂_same.2 fun r _ => .refl r

theorem RecipientsContinue.trans {rs rs' rs'' : List (MutableRecipient E)} (h : RecipientsContinue feeds rs rs')
    (h' : RecipientsContinue feeds rs' rs'') : RecipientsContinue feeds rs rs'' := by
  induction h generalizing rs'' with
  | nil => exact h'
  | cons hhead _ ih =>
    cases h' with
    | cons hhead' htail' => exact .cons (hhead.trans hhead') (ih htail')

theorem recipientsContinue_map {f : MutableRecipient E → MutableRecipient E} (hf : ∀ r, Continues feeds r (f r))
    (rs : List (MutableRecipient E)) : RecipientsContinue feeds rs (rs.map f) := by
  induction rs with
  | nil => exact .nil
  | cons r rs ih => exact .cons (hf r) ih

theorem RecipientsContinue.keys {rs rs' : List (MutableRecipient E)} (h : RecipientsContinue feeds rs rs') :
    rs'.map (·.key) = rs.map (·.key) := by
  induction h with
  | nil => rfl
  | cons hhead _ ih => rw [List.map_cons, List.map_cons, hhead.key, ih]

theorem RecipientsContinue.origin {rs rs' : List (MutableRecipient E)} (h : RecipientsContinue feeds rs rs')
    {r : MutableRecipient E} (hr : r ∈ rs') : ∃ r₀ ∈ rs, Continues feeds r₀ r := by
  induction h with
  | nil => cases hr
  | @cons r₀ _ _ _ hhead _ ih =>
    rcases List.mem_cons.1 hr with rfl | hr
    · exact ⟨r₀, by simp, hhead⟩
    · obtain ⟨r₁, hr₁, h₁⟩ := ih hr
      exact ⟨r₁, List.mem_cons_of_mem _ hr₁, h₁⟩

/-! ## What scanning one feed makes of all of them -/

def AllContinue (feeds : List FeedFile) (needs needs' : List (FeedNeed E)) : Prop :=
  RecipientsContinue feeds (needs.map (·.recipient)) (needs'.map (·.recipient))

theorem AllContinue.refl (needs : List (FeedNeed E)) : AllContinue feeds needs needs := RecipientsContinue.refl _

theorem AllContinue.trans {needs needs' needs'' : List (FeedNeed E)} (h : AllContinue feeds needs needs')
    (h' : AllContinue feeds needs' needs'') : AllContinue feeds needs needs'' := RecipientsContinue.trans h h'

theorem allContinue_map {f : FeedNeed E → FeedNeed E} (hf : ∀ need, Continues feeds need.recipient (f need).recipient)
    (needs : List (FeedNeed E)) : AllContinue feeds needs (needs.map f) := by
  induction needs with
  | nil => exact .nil
  | cons need needs ih => exact .cons (hf need) ih

theorem markNeeds_continues (picks : FeedNeed E → Bool) (issue : ReaderUnreadIssue) (coverage : CoverageState)
    (needs : List (FeedNeed E)) : AllContinue feeds needs (markNeeds picks issue coverage needs) := by
  refine allContinue_map (fun need => ?_) needs
  split
  · exact noteIssue_continues issue coverage need.recipient
  · exact .refl need.recipient

theorem resolveStart_continues (source : FeedSource) (pinned : FileSnapshot) (need : FeedNeed E) :
    Continues feeds need.recipient (resolveStart E source pinned need).recipient := by
  have hnote := @noteIssue_continues E feeds .feedRebuilt .complete need.recipient
  unfold resolveStart
  split
  · exact .refl _
  · split
    · exact .refl _
    · split
      · exact hnote
      · split
        · exact .refl _
        · exact hnote

theorem countTurns_continues {feed : FeedFile} {line : Bytes} {turn : Turn E} (hfeed : feed ∈ feeds)
    (hline : feedTurn E feed line = some turn) (position : ℕ) (needs : List (FeedNeed E)) :
    AllContinue feeds needs (countTurns E turn position needs).1 := by
  induction needs with
  | nil => exact .nil
  | cons need needs ih =>
    unfold countTurns
    split
    · rcases hcount : countTurn E turn need.recipient with f | recipient
      · exact .refl _
      · exact .cons (countTurn_continues hfeed hline hcount) ih
    · exact .cons (.refl _) ih

theorem consumeFeedLine_continues {feed : FeedFile} (hfeed : feed ∈ feeds) (line : Bytes) (position : ℕ)
    (needs : List (FeedNeed E)) : AllContinue feeds needs (consumeFeedLine E feed line position needs).1 := by
  unfold consumeFeedLine
  rcases hline : feedTurn E feed line with _ | turn
  · exact markNeeds_continues _ _ _ needs
  · exact countTurns_continues hfeed hline position needs

theorem consumeLines_continues {feed : FeedFile} (hfeed : feed ∈ feeds) (maximumRecordBytes : ℕ)
    (lines : List Bytes) (position : ℕ) (needs : List (FeedNeed E)) :
    AllContinue feeds needs (consumeLines E feed maximumRecordBytes lines position needs).1 := by
  induction lines generalizing position needs with
  | nil => exact .refl needs
  | cons line lines ih =>
    unfold consumeLines
    dsimp only
    have hconsumed : AllContinue feeds needs
        (if !needs.any (readsFrom position) then (needs, (.ok () : Except Failure Unit))
        else if (lineContent line).length > maximumRecordBytes then
          (markNeeds (readsFrom position) .feedRefused .refused needs, .ok ())
        else consumeFeedLine E feed (lineContent line) position needs).1 := by
      split
      · exact .refl needs
      · split
        · exact markNeeds_continues _ _ _ needs
        · exact consumeFeedLine_continues hfeed _ position needs
    split
    · next heq =>
      rw [heq] at hconsumed
      exact hconsumed
    · next heq =>
      rw [heq] at hconsumed
      exact hconsumed.trans (ih _ _)

theorem consumeFeedBytes_continues {feed : FeedFile} (hfeed : feed ∈ feeds) (maximumRecordBytes : ℕ)
    (bytes : Bytes) (start : ℕ) (needs : List (FeedNeed E)) :
    AllContinue feeds needs (consumeFeedBytes E feed maximumRecordBytes bytes start needs).1 := by
  have hlines := consumeLines_continues hfeed maximumRecordBytes (Lines.cut LF bytes).1 start needs
  unfold consumeFeedBytes
  dsimp only
  split
  · next heq =>
    rw [heq] at hlines
    exact hlines
  · next heq =>
    rw [heq] at hlines
    split
    · exact hlines
    · exact hlines.trans (markNeeds_continues _ _ _ _)

theorem scanRange_continues {feed : FeedFile} (hfeed : feed ∈ feeds) (limits : UnreadLimits)
    (pinned : FileSnapshot) (needs : List (FeedNeed E)) :
    AllContinue feeds needs (scanRange E feed limits pinned needs).needs := by
  unfold scanRange
  split
  · exact .refl needs
  · dsimp only
    split
    · exact markNeeds_continues _ _ _ needs
    · split
      · exact .refl needs
      · split
        · exact markNeeds_continues _ _ _ needs
        · next bytes _ _ _ =>
          split
          · exact markNeeds_continues _ _ _ needs
          · have hconsumed := consumeFeedBytes_continues hfeed limits.maxRecordBytes bytes
              ((needs.filterMap (fun need => if need.readable then need.start else none)).foldl min pinned.size)
              needs
            split
            · next heq =>
              rw [heq] at hconsumed
              exact hconsumed
            · next heq =>
              rw [heq] at hconsumed
              exact hconsumed.trans (markNeeds_continues _ _ _ _)

theorem scanNeeds_continues {feed : FeedFile} (hfeed : feed ∈ feeds) (limits : UnreadLimits)
    (needs : List (FeedNeed E)) : AllContinue feeds needs (scanNeeds E feed limits needs).needs := by
  unfold scanNeeds
  split
  · exact markNeeds_continues _ _ _ needs
  · split
    · exact markNeeds_continues _ _ _ needs
    · split
      · exact markNeeds_continues _ _ _ needs
      · next pinned _ =>
        split
        · exact markNeeds_continues _ _ _ needs
        · have hresolved : AllContinue feeds needs
              ((needs.map (resolveStart E feed.source pinned)).map markReadable) := by
            have hmarked := @allContinue_map E feeds markReadable (fun need => .refl need.recipient)
              (needs.map (resolveStart E feed.source pinned))
            exact (allContinue_map (resolveStart_continues feed.source pinned) needs).trans hmarked
          exact hresolved.trans (scanRange_continues hfeed limits pinned _)

/-! ## What reading makes of the batch -/

theorem scanPinnedFeed_continues {feed : FeedFile} (hfeed : feed ∈ feeds) (limits : UnreadLimits)
    (state : BatchState E) :
    RecipientsContinue feeds state.recipients (scanPinnedFeed E limits state feed).recipients := by
  unfold scanPinnedFeed
  dsimp only
  split
  · exact .refl _
  · have hscan := scanNeeds_continues hfeed limits (state.recipients.map (needOf E feed))
    have hrecipients : (state.recipients.map (needOf E feed)).map (·.recipient) = state.recipients := by
      rw [List.map_map]
      exact List.map_id _
    rwa [AllContinue, hrecipients] at hscan

theorem scanFeeds_continues {files : List FeedFile} (hfiles : files ⊆ feeds) (limits : UnreadLimits)
    (state : BatchState E) :
    RecipientsContinue feeds state.recipients (files.foldl (scanPinnedFeed E limits) state).recipients := by
  induction files generalizing state with
  | nil => exact .refl _
  | cons feed files ih =>
    obtain ⟨hfeed, hfiles⟩ := List.cons_subset.1 hfiles
    exact (scanPinnedFeed_continues hfeed limits state).trans (ih hfiles _)

variable (E) in
/-- The feeds of a store that are scanned. -/
def listedFeeds (store : UnreadStore) (limits : UnreadLimits) : List FeedFile :=
  match listFeedFiles store.feeds limits.maxSourceEntries with
  | .ok feedList => feedList.files
  | .error _ => []

theorem missingCheckpoint_continues (files : List FeedFile) (r : MutableRecipient E) :
    Continues feeds r (noteMissingCheckpointFeeds E files r) := by
  unfold noteMissingCheckpointFeeds
  split
  · exact noteIssue_continues _ _ r
  · exact .refl r

theorem readFeeds_continues (store : UnreadStore) (limits : UnreadLimits) (state : BatchState E) :
    RecipientsContinue (listedFeeds store limits) state.recipients (readFeeds E store limits state).recipients := by
  unfold readFeeds listedFeeds
  rcases listFeedFiles store.feeds limits.maxSourceEntries with f | feedList
  · exact recipientsContinue_map (noteIssue_continues _ _) _
  · dsimp only
    split
    · exact recipientsContinue_map (noteIssue_continues _ _) _
    · have hmissing := recipientsContinue_map (@missingCheckpoint_continues E feedList.files feedList.files)
        state.recipients
      exact hmissing.trans (@scanFeeds_continues E feedList.files feedList.files (List.Subset.refl _) limits
        (mapRecipients E (noteMissingCheckpointFeeds E feedList.files)
          { state with diagnostics := { state.diagnostics with feedFiles := feedList.total } }))

theorem revalidate_continues (file : FeedKey → CursorFile) (maximumBytes : ℕ) (r : MutableRecipient E) :
    Continues feeds r (revalidate E file maximumBytes r) := by
  unfold revalidate
  dsimp only
  split
  · split
    · exact .refl r
    · split
      · exact noteIssue_continues _ _ r
      · exact noteIssue_continues _ _ r
  · split
    · exact .refl r
    · split
      · exact noteIssue_continues _ _ r
      · exact noteIssue_continues _ _ r
  · exact .refl r

theorem recipientOf_key (key : ReaderUnreadRecipientKey) (snapshot : CursorSnapshot) :
    (recipientOf E key snapshot).key = key ∧ (recipientOf E key snapshot).newest = none := by
  have hnote : ∀ issue coverage (r : MutableRecipient E), (noteIssue issue coverage r).key = r.key ∧
      (noteIssue issue coverage r).newest = r.newest := by
    intro issue coverage r
    unfold noteIssue
    split
    · exact ⟨rfl, rfl⟩
    · exact ⟨rfl, rfl⟩
  cases snapshot with
  | persisted cursor =>
    unfold recipientOf
    dsimp only
    split
    · exact hnote _ _ _
    · exact ⟨rfl, rfl⟩
  | virtual => exact ⟨rfl, rfl⟩
  | _ => exact hnote _ _ _

/-- **Reading comes to an end with every member in its place**, and a turn a member is given
is an unread record of a feed. -/
theorem gather_recipients (store : UnreadStore) (keys : List ReaderUnreadRecipientKey) (limits : UnreadLimits) :
    ((gather E store keys limits).recipients.map (·.key)) = keys ∧
      ∀ r ∈ (gather E store keys limits).recipients, ∀ turn, r.newest = some turn →
        ∃ feed ∈ listedFeeds store limits, IsUnread feed r turn := by
  have hcontinues : RecipientsContinue (listedFeeds store limits)
      (readCursorSnapshots E store keys limits).recipients (gather E store keys limits).recipients :=
    (readFeeds_continues store limits _).trans (recipientsContinue_map (revalidate_continues _ _) _)
  have hstart : (readCursorSnapshots E store keys limits).recipients.map (·.key) = keys := by
    rw [readCursorSnapshots, List.map_map]
    exact (List.map_congr_left fun key _ => (recipientOf_key key _).1).trans (List.map_id keys)
  refine ⟨by rw [hcontinues.keys, hstart], fun r hr turn hturn => ?_⟩
  obtain ⟨r₀, hr₀, h⟩ := hcontinues.origin hr
  have hnone : r₀.newest = none := by
    obtain ⟨key, -, rfl⟩ := List.mem_map.1 hr₀
    exact (recipientOf_key key _).2
  rcases h.newest turn hturn with hturn | ⟨feed, hfeed, hunread⟩
  · rw [hnone] at hturn
    cases hturn
  · refine ⟨feed, hfeed, hunread.line, ?_, ?_, ?_⟩
    · rw [hunread.workstream, h.key]
    · rw [h.key]
      exact hunread.membership
    · rw [h.cursor]
      exact hunread.unacknowledged

/-! ## What the summaries show -/

/-- The turn can be shown within a budget: its least projection fits. A record that holds a
number out of range is projected as far as that is not met. -/
def Presentable (turnByteBudget : ℕ) (turn : Turn E) : Prop :=
  if isOrdinary turn.json then projectionSize turnByteBudget (buildTurn turn.json {}) ≤ turnByteBudget
  else ∃ projection, projectTurn turn.json { byteBudget := turnByteBudget } = .ok projection

theorem projectUnreadTurn_iff {turn : Turn E} {turnByteBudget : ℕ}
    (hbudget : assertReaderByteBudget turnByteBudget = .ok ()) :
    (∃ shown, projectUnreadTurn turn turnByteBudget = .ok shown) ↔ Presentable turnByteBudget turn := by
  have hproject : (∃ shown, projectUnreadTurn turn turnByteBudget = .ok shown) ↔
      ∃ projection, projectTurn turn.json { byteBudget := turnByteBudget } = .ok projection := by
    unfold projectUnreadTurn
    rcases projectTurn turn.json { byteBudget := turnByteBudget } with e | projection
    · simp
    · simp
  have hlimits : projectionLimits { byteBudget := turnByteBudget } = .ok () := by
    rw [projectionLimits, hbudget]
    rfl
  rw [hproject, Presentable]
  split
  · next hordinary => exact projectTurn_iff hordinary hlimits
  · exact Iff.rfl

/-- A member whose sources were sound can be shown its newest unread turn. -/
def Showable (turnByteBudget : ℕ) (r : MutableRecipient E) : Prop :=
  r.issue = none → ∀ turn, r.newest = some turn → Presentable turnByteBudget turn

theorem finishRecipient_iff {r : MutableRecipient E} {turnByteBudget : ℕ}
    (hbudget : assertReaderByteBudget turnByteBudget = .ok ()) :
    (∃ item, finishRecipient turnByteBudget r = .ok item) ↔ Showable turnByteBudget r := by
  have hstatus : (∃ item, finishRecipient turnByteBudget r = .ok item) ↔
      ∃ status, finishStatus r turnByteBudget = .ok status := by
    unfold finishRecipient
    rcases finishStatus r turnByteBudget with e | status
    · simp [bind, Except.bind]
    · simp [bind, Except.bind, pure, Except.pure]
  rw [hstatus]
  unfold finishStatus Showable
  rcases hissue : r.issue with _ | issue
  · rcases hnewest : r.newest with _ | turn
    · simp
    · have hshown := @projectUnreadTurn_iff E turn turnByteBudget hbudget
      simp only [forall_const, Option.some.injEq, forall_eq', ← hshown]
      rcases projectUnreadTurn turn turnByteBudget with e | shown
      · simp [bind, Except.bind]
      · simp [bind, Except.bind, pure, Except.pure]
  · simp

theorem finishRecipient_key {r : MutableRecipient E} {turnByteBudget : ℕ} {item : ReaderUnreadSummary}
    (h : finishRecipient turnByteBudget r = .ok item) : item.key = r.key := by
  simp only [finishRecipient, Outcome.bind_ok, Outcome.pure_ok] at h
  obtain ⟨status, -, rfl⟩ := h
  rfl

theorem finishItems_iff (rs : List (MutableRecipient E)) {turnByteBudget : ℕ}
    (hbudget : assertReaderByteBudget turnByteBudget = .ok ()) :
    (∃ items, rs.mapM (finishRecipient turnByteBudget) = .ok items) ↔ ∀ r ∈ rs, Showable turnByteBudget r := by
  induction rs with
  | nil => simp [pure, Except.pure]
  | cons r rs ih =>
    rw [List.forall_mem_cons, ← finishRecipient_iff hbudget, ← ih]
    simp only [List.mapM_cons, Outcome.bind_ok, Outcome.pure_ok]
    constructor
    · rintro ⟨-, item, hitem, items, hitems, -⟩
      exact ⟨⟨item, hitem⟩, items, hitems⟩
    · rintro ⟨⟨item, hitem⟩, items, hitems⟩
      exact ⟨_, item, hitem, items, hitems, rfl⟩

theorem finishItems_keys {rs : List (MutableRecipient E)} {turnByteBudget : ℕ} {items : List ReaderUnreadSummary}
    (h : rs.mapM (finishRecipient turnByteBudget) = .ok items) : items.map (·.key) = rs.map (·.key) := by
  induction rs generalizing items with
  | nil =>
    simp only [List.mapM_nil, Outcome.pure_ok] at h
    rw [← h]
    rfl
  | cons r rs ih =>
    simp only [List.mapM_cons, Outcome.bind_ok, Outcome.pure_ok] at h
    obtain ⟨item, hitem, items', hitems, rfl⟩ := h
    rw [List.map_cons, List.map_cons, finishRecipient_key hitem, ih hitems]

theorem finishBatch_iff {state : BatchState E} {total hidden turnByteBudget : ℕ}
    (hbudget : assertReaderByteBudget turnByteBudget = .ok ()) :
    (∃ batch, finishBatch state total hidden turnByteBudget = .ok batch) ↔
      ∀ r ∈ state.recipients, Showable turnByteBudget r := by
  rw [← finishItems_iff _ hbudget]
  simp only [finishBatch, Outcome.bind_ok, Outcome.pure_ok]
  constructor
  · rintro ⟨-, items, hitems, -⟩
    exact ⟨items, hitems⟩
  · rintro ⟨items, hitems⟩
    exact ⟨_, items, hitems, rfl⟩

theorem finishBatch_ok {state : BatchState E} {total hidden turnByteBudget : ℕ} {batch : ReaderUnreadBatch}
    (h : finishBatch state total hidden turnByteBudget = .ok batch) :
    batch.items.map (·.key) = state.recipients.map (·.key) ∧ batch.hidden = hidden := by
  simp only [finishBatch, Outcome.bind_ok, Outcome.pure_ok] at h
  obtain ⟨items, hitems, rfl⟩ := h
  exact ⟨finishItems_keys hitems, rfl⟩

/-! ## The batch -/

theorem positiveInteger_ok {value : ℤ} {name : String} {n : ℕ} (h : positiveInteger value name = .ok n) :
    assertReaderByteBudget n = .ok () := by
  rw [positiveInteger, Outcome.guard_ok] at h
  obtain ⟨hvalue, hn⟩ := h
  cases hn
  rw [assertReaderByteBudget, if_neg (by omega)]

theorem validateOptions_budget {options : ReaderUnreadBatchOptions} {limits : UnreadLimits}
    (h : validateOptions E options = .ok limits) : assertReaderByteBudget limits.turnByteBudget = .ok () := by
  simp only [validateOptions, Outcome.guard_ok, Outcome.bind_ok, Outcome.pure_ok] at h
  obtain ⟨-, ⟨⟩, -, -, -, -, -, -, -, -, -, -, -, -, -, budget, hbudget, rfl⟩ := h
  exact positiveInteger_ok hbudget

/-- The members that are shown: the first in the order of their keys. -/
def shownRecipients (options : ReaderUnreadBatchOptions) (limits : UnreadLimits) : List ReaderUnreadRecipientKey :=
  (sortedRecipients options).take limits.maxRecipients

/-- Every member that is shown has its summary, which is ready or unknown, and the others
are counted. -/
structure Complete (options : ReaderUnreadBatchOptions) (limits : UnreadLimits) (batch : ReaderUnreadBatch) :
    Prop where
  items : batch.items.map (·.key) = shownRecipients options limits
  hidden : batch.hidden = options.recipients.length - limits.maxRecipients
  requested : options.recipients.length ≤ limits.maxRecipients →
    ∀ key ∈ options.recipients, ∃ item ∈ batch.items, item.key = key

theorem complete_of_items {options : ReaderUnreadBatchOptions} {limits : UnreadLimits} {batch : ReaderUnreadBatch}
    (hitems : batch.items.map (·.key) = shownRecipients options limits)
    (hhidden : batch.hidden = (sortedRecipients options).length - (shownRecipients options limits).length) :
    Complete options limits batch := by
  have hperm : (sortedRecipients options).Perm options.recipients := List.mergeSort_perm _ _
  refine ⟨hitems, ?_, fun hfew key hkey => ?_⟩
  · rw [hhidden, shownRecipients, List.length_take, hperm.length_eq]
    omega
  · have hall : shownRecipients options limits = sortedRecipients options :=
      List.take_of_length_le (hperm.length_eq.trans_le hfew)
    rw [hall] at hitems
    have hmem := hperm.mem_iff.2 hkey
    rw [← hitems] at hmem
    exact List.mem_map.1 hmem

theorem readUnreadSummaryBatch_eq {store : UnreadStore} {options : ReaderUnreadBatchOptions} {limits : UnreadLimits}
    (hlimits : validateOptions E options = .ok limits)
    (hunique : assertUniqueRecipients (sortedRecipients options) = .ok ()) :
    readUnreadSummaryBatch E store options =
      finishBatch (gather E store (shownRecipients options limits) limits) (sortedRecipients options).length
        ((sortedRecipients options).length - (shownRecipients options limits).length) limits.turnByteBudget := by
  simp only [readUnreadSummaryBatch, hlimits, hunique, Outcome.ok_bind, shownRecipients]

/-- **The batch returns the summaries of all exactly if what each is to show can be shown**:
the least projection of the newest unread turn of each member whose sources were sound fits
the budget. -/
theorem batch_returns (store : UnreadStore) (options : ReaderUnreadBatchOptions) (limits : UnreadLimits)
    (hlimits : validateOptions E options = .ok limits)
    (hunique : assertUniqueRecipients (sortedRecipients options) = .ok ()) :
    (∃ batch, readUnreadSummaryBatch E store options = .ok batch ∧ Complete options limits batch) ↔
      ∀ r ∈ (gather E store (shownRecipients options limits) limits).recipients,
        Showable limits.turnByteBudget r := by
  have hbudget := validateOptions_budget hlimits
  rw [← finishBatch_iff hbudget, readUnreadSummaryBatch_eq hlimits hunique]
  constructor
  · rintro ⟨batch, hbatch, -⟩
    exact ⟨batch, hbatch⟩
  · rintro ⟨batch, hbatch⟩
    obtain ⟨hkeys, hhidden⟩ := finishBatch_ok hbatch
    rw [(gather_recipients store _ limits).1] at hkeys
    exact ⟨batch, hbatch, complete_of_items hkeys hhidden⟩

end

/-! ## A wide turn -/

section
variable {E : Host}

/-- A turn as the program writes it is read back, if its provider and its dates are short. -/
theorem feedTurn_written {feed : FeedFile} {turn : Turn E} (hwritten : Written E.float turn.json)
    (hshort : (validProvider turn.provider && validTimestamp E (textAt "started_at" turn.json) &&
      validTimestamp E turn.endedAt && turn.provider == feed.provider &&
      turn.sessionId == feed.sessionId) = true) :
    feedTurn E feed (utf8 (stableStringify turn.json)) = some turn := by
  have htext : stableStringify turn.json = turn.json.render := stableStringify_of_sorted hwritten.sorted
  have hmark : turn.json.render.head? ≠ some 0xFEFF := by
    obtain ⟨fs, hfs⟩ : ∃ fs, turn.json = .obj fs := by
      have hturn := turn.isTurn
      rcases hjson : turn.json with _ | _ | _ | _ | _ | fs
      all_goals first | exact ⟨_, rfl⟩ | (rw [hjson] at hturn; cases hturn)
    rw [hfs]
    cases fs with
    | nil => decide
    | cons f fs => simp [Json.render]
  have hof : Turn.ofJson E turn.json = some turn := by
    rw [Turn.ofJson, dif_pos turn.isTurn]
  simp only [feedTurn, htext, textDecode_utf8 (Json.render_clean hwritten.wellFormed).wellFormed hmark,
    Option.bind_eq_bind, Option.bind_some, Json.parse_render hwritten.wellFormed, hof, hshort, if_true]

/-- No carriage return ends a line the program writes. -/
theorem lineContent_stable {v : Json} (h : v.WellFormed E.float) :
    lineContent (utf8 (stableStringify v)) = utf8 (stableStringify v) := by
  refine if_neg fun hlast => ?_
  obtain ⟨u, hu, heq⟩ := Utf16.ascii_mem_utf8 (b := 13) (by decide) (List.mem_of_getLast? hlast)
  have hprintable := (stableStringify_clean h).noControl u hu
  rw [heq] at hprintable
  exact absurd hprintable (by decide)

/-- A feed of one line that is a turn. -/
theorem consume_one_line {feed : FeedFile} {maximumRecordBytes : ℕ} {bytes line : Bytes} {turn : Turn E}
    {start : ℕ} {needs needs' : List (FeedNeed E)} (hcut : Lines.cut LF bytes = ([line], []))
    (hcontent : lineContent line = line) (hshort : line.length ≤ maximumRecordBytes)
    (hturn : feedTurn E feed line = some turn) (hreads : needs.any (readsFrom start) = true)
    (hcount : countTurns E turn start needs = (needs', .ok ())) :
    consumeFeedBytes E feed maximumRecordBytes bytes start needs = (needs', .ok ()) := by
  have hlines : consumeLines E feed maximumRecordBytes [line] start needs = (needs', .ok ()) := by
    simp only [consumeLines, hreads, hcontent, Bool.not_true, if_neg (Nat.not_lt.2 hshort), consumeFeedLine,
      hturn, hcount]
    simp
  simp only [consumeFeedBytes, hcut, hlines, if_true]

theorem snapshot_of_file {f : FileState} (hfile : f.isFile = true) (hsize : f.size ≤ maxSafeInteger) :
    snapshotFromStats f = .ok ⟨⟨js (toString f.dev), js (toString f.ino), js (toString f.birthtimeNs)⟩,
      f.size, js (toString f.mtimeNs)⟩ := by
  rw [snapshotFromStats, hfile, if_neg (by decide), if_neg (by omega)]

/-- A member with no checkpoint is read from the beginning of the feed. -/
structure IsFresh (need : FeedNeed E) : Prop where
  needed : need.needed = true
  checkpoint : need.checkpoint = none
  issue : need.recipient.issue = none

theorem starts_fresh {needs : List (FeedNeed E)} (hreads : ∀ need ∈ needs, need.start = some 0 ∧ need.readable = true) :
    needs.filterMap (fun need => if need.readable then need.start else none) = List.replicate needs.length 0 := by
  induction needs with
  | nil => rfl
  | cons need needs ih =>
    obtain ⟨⟨hstart, hreadable⟩, htail⟩ := List.forall_mem_cons.1 hreads
    rw [List.filterMap_cons_some (b := 0), ih htail, List.length_cons, List.replicate_succ]
    rw [hreadable, if_pos rfl, hstart]

/-- A feed that is sound is read whole, by members that are new to it. -/
theorem scan_fresh {feed : FeedFile} {limits : UnreadLimits} {needs needs' : List (FeedNeed E)} {f : FileState}
    (hopen : openFeed feed.source = some f) (hread : feed.source.read = .ok f) (hafter : feed.source.after = .ok f)
    (hfile : f.isFile = true) (hlinks : f.nlink = 1) (hsome : 0 < f.size) (hsize : f.size ≤ maxSafeInteger)
    (hfeed : f.size ≤ limits.maxFeedBytes) (hscan : f.size ≤ limits.maxScanBytes) (hne : needs ≠ [])
    (hfresh : ∀ need ∈ needs, IsFresh need)
    (hconsume : consumeFeedBytes E feed limits.maxRecordBytes f.bytes 0
      (needs.map fun need => { need with start := some 0, readable := true }) = (needs', .ok ())) :
    (scanNeeds E feed limits needs).needs = needs' := by
  set started := needs.map fun need => { need with start := some 0, readable := true } with hstarted
  have hresolved : ∀ pinned, (needs.map (resolveStart E feed.source pinned)).map markReadable = started := by
    intro pinned
    rw [hstarted, List.map_map]
    refine List.map_congr_left fun need hneed => ?_
    obtain ⟨hneeded, hcheckpoint, hissue⟩ := hfresh need hneed
    simp [resolveStart, hneeded, hcheckpoint, markReadable, hissue]
  have hreads : ∀ need ∈ started, need.start = some 0 ∧ need.readable = true := by
    intro need hneed
    obtain ⟨need', -, rfl⟩ := List.mem_map.1 hneed
    exact ⟨rfl, rfl⟩
  have hany : started.any (·.readable) = true := by
    obtain ⟨need, hneed⟩ := List.exists_mem_of_ne_nil started (by rw [hstarted]; simpa using hne)
    exact List.any_eq_true.2 ⟨need, hneed, (hreads need hneed).2⟩
  have hearliest : (started.filterMap (fun need => if need.readable then need.start else none)).foldl min f.size
      = 0 := by
    have hlength : started.length ≠ 0 := by
      rw [hstarted, List.length_map]
      simpa using hne
    rw [starts_fresh hreads]
    obtain ⟨n, hn⟩ := Nat.exists_eq_succ_of_ne_zero hlength
    rw [hn, List.replicate_succ, List.foldl_cons, Nat.min_zero]
    clear hn
    induction n with
    | zero => rfl
    | succ n ih => rw [List.replicate_succ, List.foldl_cons, Nat.min_zero, ih]
  have hsnapshot := snapshot_of_file hfile hsize
  have hbytes : readExactly f 0 f.size = .ok f.bytes := by
    rw [readExactly, if_neg (by omega), FileState.size, List.drop_zero, List.take_length]
  have hrange : readFeedRange feed.source 0 f.size = .ok (f.bytes, 1, ⟨⟨js (toString f.dev), js (toString f.ino),
      js (toString f.birthtimeNs)⟩, f.size, js (toString f.mtimeNs)⟩) := by
    simp only [readFeedRange, hread, hafter, Outcome.ok_bind, hbytes, hsnapshot, hlinks]
    rfl
  have hsame : ∀ identity, fileIdentityEquals identity identity = true := fun identity => by simp [fileIdentityEquals]
  simp only [scanNeeds, hopen, hfile, hlinks, hsnapshot, if_neg (Nat.not_lt.2 hfeed), hresolved, scanRange, hany,
    hearliest, Nat.sub_zero, if_neg (Nat.not_lt.2 hscan), if_neg (Nat.pos_iff_ne_zero.1 hsome), hrange, hsame,
    hconsume]
  simp

/-- The name of the agent is in every projection of a turn. -/
theorem projectionSize_agent {turn agent : Json} (hturn : isOrdinary turn = true)
    (hagent : turn.get (js "agent_id") = some agent) (byteBudget : ℕ) :
    stableSize agent < projectionSize byteBudget (buildTurn turn {}) := by
  have hbuilt := isOrdinary_buildTurn hturn {}
  obtain ⟨fs, hfs, hmem⟩ : ∃ fs, buildTurn turn {} = .obj fs ∧ (js "agent_id", agent) ∈ fs := by
    refine ⟨_, rfl, ?_⟩
    simp [copyMember, hagent, optionalMember]
  rw [hfs] at hbuilt ⊢
  have hwell : ∀ f ∈ fs, Utf16.WellFormed (stableStringify f.2) :=
    fun f hf => isOrdinary_stable (isOrdinary_obj.1 hbuilt f hf)
  have hsize := (stable_obj (List.ne_nil_of_mem hmem) hwell).2
  have hsum : memberSize (js "agent_id", agent) ≤ (fs.map memberSize).sum := by
    obtain ⟨before, after, rfl⟩ := List.append_of_mem hmem
    rw [List.map_append, List.sum_append, List.map_cons, List.sum_cons]
    omega
  have hmember : memberSize (js "agent_id", agent) = byteLength (Json.quote (js "agent_id")) + stableSize agent + 2 := rfl
  have hown : envelopeRest byteBudget (stableSize (.obj fs)) ≤ projectionSize byteBudget (.obj fs) :=
    Nat.le_add_right _ _
  unfold envelopeRest at hown
  omega

/-- A store of one feed, that is not too large. -/
theorem readFeeds_single {store : UnreadStore} {limits : UnreadLimits} {state : BatchState E} {feed : FeedFile}
    (hfeeds : listFeedFiles store.feeds limits.maxSourceEntries = .ok { files := [feed], total := 1, limited := false })
    (hmissing : ∀ r ∈ state.recipients, noteMissingCheckpointFeeds E [feed] r = r)
    (hneeded : (state.recipients.map (needOf E feed)).any (·.needed) = true) :
    (readFeeds E store limits state).recipients =
      (scanNeeds E feed limits (state.recipients.map (needOf E feed))).needs.map (·.recipient) := by
  have hkept : state.recipients.map (noteMissingCheckpointFeeds E [feed]) = state.recipients :=
    (List.map_congr_left hmissing).trans (List.map_id _)
  simp only [readFeeds, hfeeds, Bool.false_eq_true, if_false, List.foldl_cons, List.foldl_nil, scanPinnedFeed,
    mapRecipients, hkept, hneeded, Bool.not_true]

end

def unreadHost : Host :=
  Host.ofTables [] [(0, js "1970-01-01T00:00:00.000Z"), (1000, js "1970-01-01T00:00:01.000Z")] (by decide)

def hexId (tag : String) (digit : UInt16) : JsString := js tag ++ 95 :: List.replicate 32 digit

/-- A member of a workstream. -/
def memberOf (digit : UInt16) : ReaderUnreadRecipientKey :=
  ⟨js "claude", hexId "ses" digit, hexId "ws" digit, js "1970-01-01T00:00:00.000Z"⟩

/-- The name of an agent, as long as the budget of a turn. -/
def wideAgent : JsString := List.replicate 4096 97

/-- What else is in the turn: it is of another session, in the workstream of the first member. -/
def wideMembers : List (JsString × Json) :=
  [(js "ended_at", .str (js "1970-01-01T00:00:01.000Z")), (js "evidence_refs", .arr []),
    (js "outcome", .str (js "success")), (js "provider", .str (js "claude")),
    (js "request", .obj [(js "fidelity", .str (js "verbatim")), (js "redactions", .arr []),
      (js "text", .str (js "hi")), (js "truncated", .bool false)]),
    (js "schema", .str (js "barbaro.turn.v1")), (js "sequence", natJson 1),
    (js "session_id", .str (hexId "ses" 50)), (js "source_refs", .arr []),
    (js "started_at", .str (js "1970-01-01T00:00:01.000Z")),
    (js "subagents", .obj [(js "by_role", .arr []), (js "changed_paths", .arr []), (js "evidence_refs", .arr []),
      (js "outcomes", .obj []), (js "total", natJson 0)]),
    (js "turn_id", .str (hexId "turn" 50)), (js "workstream_id", .str (hexId "ws" 48))]

def wideJson : Json := .obj ((js "actions", .arr []) :: (js "agent_id", .str wideAgent) :: wideMembers)

def wideTurn : Turn unreadHost := ⟨wideJson, by decide⟩

def wideFile : FileState where
  dev := 1
  ino := 2
  birthtimeNs := 3
  mtimeNs := 4
  bytes := utf8 (stableJsonLine wideJson)

def wideFeed : FeedFile where
  provider := js "claude"
  sessionId := hexId "ses" 50
  source := {
    parent := .ok true, opened := .file wideFile, anchor := fun _ => .ok wideFile
    boundary := fun _ => .ok wideFile, read := .ok wideFile, after := .ok wideFile }

/-- There is no directory of cursors. -/
def noCursor : CursorFile where
  parent := .ok false
  opened := .missing
  read := .error (.system "ENOENT")
  extra := .error (.system "ENOENT")
  after := .error (.system "ENOENT")

def wideStore : UnreadStore where
  cursors := fun _ => noCursor
  feeds := .ok (some [⟨js "claude", true,
    .ok (some [⟨hexId "ses" 50 ++ js ".jsonl", true, wideFeed.source⟩])⟩])
  cursorsAfter := fun _ => noCursor

/-- Two members of two workstreams. -/
def wideOptions : ReaderUnreadBatchOptions where
  projectRoot := js "/repo"
  recipients := [memberOf 48, memberOf 49]

def wideLimits : UnreadLimits where
  maxRecipients := 256
  maxSourceEntries := 4096
  maxCursorBytes := 1024 * 1024
  maxFeedBytes := 64 * 1024 * 1024
  maxRecordBytes := 8 * 1024 * 1024
  maxScanBytes := 16 * 1024 * 1024
  turnByteBudget := 4 * 1024

theorem wideOptions_valid : validateOptions unreadHost wideOptions = .ok wideLimits := by decide

theorem wideOptions_sorted : sortedRecipients wideOptions = [memberOf 48, memberOf 49] := by
  refine List.mergeSort_of_pairwise ?_
  decide

theorem wideOptions_unique : assertUniqueRecipients (sortedRecipients wideOptions) = .ok () := by
  rw [wideOptions_sorted]
  decide

theorem wideStore_feeds : listFeedFiles wideStore.feeds wideLimits.maxSourceEntries =
    .ok { files := [wideFeed], total := 1, limited := false } := by
  have hsession : feedSession (hexId "ses" 50 ++ js ".jsonl") = some (hexId "ses" 50) := by decide
  have hprovider : validProvider (js "claude") = true := by decide
  have hfew : 0 < wideLimits.maxSourceEntries := by decide
  simp only [listFeedFiles, wideStore, Outcome.ok_bind, List.mergeSort_singleton, listProviders, hprovider,
    listEntries, hsession]
  simp [hfew, wideFeed]

theorem wideJson_written : Written unreadHost.float wideJson := by
  have hempty : Written unreadHost.float (.arr []) := .arr (by simp)
  have hone : ∀ n : ℕ, n ≤ maxSafeInteger → Written unreadHost.float (natJson n) := fun n hn => .int hn
  have hrequest : Written unreadHost.float (.obj [(js "fidelity", .str (js "verbatim")),
      (js "redactions", .arr []), (js "text", .str (js "hi")), (js "truncated", .bool false)]) := by
    refine .obj (by decide) ?_
    simp [Written.str, Written.bool, hempty]
  have hsubagents : Written unreadHost.float (.obj [(js "by_role", .arr []), (js "changed_paths", .arr []),
      (js "evidence_refs", .arr []), (js "outcomes", .obj []), (js "total", natJson 0)]) := by
    refine .obj (by decide) ?_
    have hobj : Written unreadHost.float (.obj []) := .obj rfl (by simp)
    simp [hempty, hobj, hone 0 (by decide)]
  refine .obj (by decide) ?_
  simp only [wideMembers, List.forall_mem_cons]
  exact ⟨hempty, .str _, .str _, hempty, .str _, .str _, hrequest, .str _, hone 1 (by decide), .str _, hempty,
    .str _, hsubagents, .str _, .str _, by simp⟩

/-- The line of the feed is read back. -/
theorem wideFeed_turn : feedTurn unreadHost wideFeed (utf8 (stableStringify wideJson)) = some wideTurn :=
  @feedTurn_written unreadHost wideFeed wideTurn wideJson_written (by decide)

theorem wideFile_lines : Lines.cut LF wideFile.bytes = ([utf8 (stableStringify wideJson)], []) := by
  have hbytes : wideFile.bytes = utf8 (stableStringify wideJson) ++ LF :: [] :=
    utf8_line wideJson_written.wellFormed
  rw [hbytes, Lines.cut_line (LF_not_mem_stable wideJson_written.wellFormed)]
  rfl

theorem wideAgent_size : stableSize (.str wideAgent) = 4098 := by
  have hplain : ∀ u ∈ wideAgent, u = 97 := fun u hu => (List.mem_replicate.1 hu).2
  have hquote := @PlainText.quote_bytes wideAgent (fun u hu => by rw [hplain u hu]; decide)
  rw [stableSize, stable_str, hquote, wideAgent, List.length_replicate]

/-- The file is no longer than the budgets allow. -/
theorem wideFile_size : wideFile.size ≤ 5000 := by
  have hmembers : ∀ f ∈ (js "actions", Json.arr []) :: (js "agent_id", .str wideAgent) :: wideMembers,
      Utf16.WellFormed (stableStringify f.2) := by
    intro f hf
    exact (stableStringify_clean (wellFormedFields_iff.1 wideJson_written.wellFormed.2 f hf)).wellFormed
  have hagent : memberSize (js "agent_id", .str wideAgent) = 4110 := by
    rw [memberSize, wideAgent_size]
    decide
  have hothers : memberSize (js "actions", .arr []) + (wideMembers.map memberSize).sum ≤ 800 := by
    decide
  have hsize := (stable_obj (by simp) hmembers).2
  rw [List.map_cons, List.map_cons, List.sum_cons, List.sum_cons, hagent] at hsize
  rw [FileState.size, wideFile, stableJsonLine_length (stableStringify_clean wideJson_written.wellFormed).wellFormed,
    wideJson, hsize]
  omega

/-- What the two members are before the feed is scanned. -/
def freshMember (digit : UInt16) : MutableRecipient unreadHost where
  key := memberOf digit
  initialCursorSnapshot := .virtual
  cursorState := .virtual

/-- The first member, once it was given the turn. -/
def wideMember : MutableRecipient unreadHost := { freshMember 48 with unreadCount := 1, newest := some wideTurn }

def readerOf (r : MutableRecipient unreadHost) : FeedNeed unreadHost where
  recipient := r
  needed := true
  checkpoint := none
  start := some 0
  readable := true

theorem wide_counted : countTurn unreadHost wideTurn (freshMember 48) = .ok wideMember ∧
    countTurn unreadHost wideTurn (freshMember 49) = .ok (freshMember 49) := by
  have hworkstream : wideTurn.workstreamId = some (hexId "ws" 48) := by decide
  have hother : hexId "ws" 48 ≠ hexId "ws" 49 := by decide
  have hended : (unreadHost.dateParse (js "1970-01-01T00:00:00.000Z")).any
      (fun start => wideTurn.endedAtMs ≤ start) = false := by decide
  constructor
  · rw [countTurn, if_neg]
    · rfl
    · simp [freshMember, memberOf, hworkstream, hended]
  · rw [countTurn, if_pos]
    simp [freshMember, memberOf, hworkstream, hother]

theorem wide_consumed : consumeFeedBytes unreadHost wideFeed wideLimits.maxRecordBytes wideFile.bytes 0
    [readerOf (freshMember 48), readerOf (freshMember 49)] =
      ([readerOf wideMember, readerOf (freshMember 49)], .ok ()) := by
  have hreads : ∀ r, readsFrom 0 (readerOf r) = true := fun _ => rfl
  have hrecipient : ∀ r, (readerOf r).recipient = r := fun _ => rfl
  have hwith : ∀ r r', { readerOf r with recipient := r' } = readerOf r' := fun _ _ => rfl
  refine consume_one_line wideFile_lines (lineContent_stable wideJson_written.wellFormed) ?_ wideFeed_turn ?_ ?_
  · have hsize := wideFile_size
    rw [FileState.size, wideFile, utf8_line wideJson_written.wellFormed, List.length_append] at hsize
    have hlimit : wideLimits.maxRecordBytes = 8388608 := rfl
    omega
  · simp [hreads]
  · simp only [countTurns, hreads, if_true, hrecipient, wide_counted.1, wide_counted.2, hwith]

theorem wideFile_nonempty : 0 < wideFile.size := by
  refine List.length_pos_iff.2 fun hempty => ?_
  have hlines := wideFile_lines
  rw [hempty] at hlines
  cases hlines

/-- The scan gives the turn to the first member. -/
theorem wide_scanned : (scanNeeds unreadHost wideFeed wideLimits
    [needOf unreadHost wideFeed (freshMember 48), needOf unreadHost wideFeed (freshMember 49)]).needs =
      [readerOf wideMember, readerOf (freshMember 49)] := by
  have hsize := wideFile_size
  have hother : ∀ digit : UInt16, digit = 48 ∨ digit = 49 →
      needOf unreadHost wideFeed (freshMember digit) = { readerOf (freshMember digit) with start := none, readable := false } := by
    rintro digit (rfl | rfl)
    · simp [needOf, readerOf, freshMember, memberOf, wideFeed, hexId]
    · simp [needOf, readerOf, freshMember, memberOf, wideFeed, hexId]
  rw [hother 48 (.inl rfl), hother 49 (.inr rfl)]
  have hlimits : (5000 : ℕ) ≤ maxSafeInteger ∧ 5000 ≤ wideLimits.maxFeedBytes ∧ 5000 ≤ wideLimits.maxScanBytes := by
    decide
  refine @scan_fresh _ _ _ _ _ wideFile (by simp only [openFeed, wideFeed]) (by simp only [wideFeed])
    (by simp only [wideFeed]) (by simp only [wideFile]) (by simp only [wideFile]) wideFile_nonempty (by omega)
    (by omega) (by omega) (by simp) ?_ ?_
  · simp only [List.forall_mem_cons]
    exact ⟨⟨rfl, rfl, rfl⟩, ⟨rfl, rfl, rfl⟩, by simp⟩
  · exact wide_consumed

theorem wide_cursors : (readCursorSnapshots unreadHost wideStore [memberOf 48, memberOf 49] wideLimits).recipients =
    [freshMember 48, freshMember 49] := by
  have hcursor : ∀ key, readCursorSnapshot unreadHost noCursor key wideLimits.maxCursorBytes = .virtual :=
    fun _ => rfl
  have hrecipients : ∀ digit, recipientOf unreadHost (memberOf digit) .virtual = freshMember digit := fun _ => rfl
  simp only [readCursorSnapshots, wideStore, List.map_cons, List.map_nil, hcursor, hrecipients]

theorem wide_read (state : BatchState unreadHost) (hstate : state.recipients = [freshMember 48, freshMember 49]) :
    (readFeeds unreadHost wideStore wideLimits state).recipients = [wideMember, freshMember 49] := by
  have hrecipient : ∀ r : MutableRecipient unreadHost, (readerOf r).recipient = r := fun _ => rfl
  have hneeded : ([freshMember 48, freshMember 49].map (needOf unreadHost wideFeed)).any (·.needed) = true := by
    decide
  rw [readFeeds_single wideStore_feeds, hstate, List.map_cons, List.map_cons, List.map_nil, wide_scanned,
    List.map_cons, List.map_cons, List.map_nil, hrecipient, hrecipient]
  · intro r hr
    rw [hstate] at hr
    simp only [List.mem_cons, List.not_mem_nil, or_false] at hr
    rcases hr with rfl | rfl
    · rfl
    · rfl
  · rw [hstate]
    exact hneeded

theorem wide_revalidated : revalidate unreadHost wideStore.cursorsAfter wideLimits.maxCursorBytes wideMember =
    wideMember := by
  have hcursor : ∀ key, readCursorSnapshot unreadHost noCursor key wideLimits.maxCursorBytes = .virtual :=
    fun _ => rfl
  have hkept : ∀ r : MutableRecipient unreadHost, r.initialCursorSnapshot = .virtual →
      revalidate unreadHost wideStore.cursorsAfter wideLimits.maxCursorBytes r = r := by
    intro r hr
    simp [revalidate, hr, wideStore, hcursor]
  exact hkept wideMember rfl

theorem wide_gathered : wideMember ∈
    (gather unreadHost wideStore (shownRecipients wideOptions wideLimits) wideLimits).recipients := by
  have hshown : shownRecipients wideOptions wideLimits = [memberOf 48, memberOf 49] := by
    rw [shownRecipients, wideOptions_sorted]
    rfl
  rw [hshown, gather, mapRecipients, wide_read _ wide_cursors, List.map_cons, wide_revalidated]
  exact List.mem_cons_self

/-- The least projection of the turn is larger than the budget. -/
theorem wideMember_unshowable : ¬ Showable wideLimits.turnByteBudget wideMember := by
  have hordinary : isOrdinary wideTurn.json = true := by
    simp only [wideTurn, wideJson, wideMembers, isOrdinary_obj, List.forall_mem_cons]
    decide
  intro hshow
  have hpresentable := hshow rfl wideTurn rfl
  have hget : wideTurn.json.get (js "agent_id") = some (.str wideAgent) := by
    simp only [wideTurn, wideJson]
    rfl
  rw [Presentable, if_pos hordinary] at hpresentable
  have hlarge := projectionSize_agent hordinary hget wideLimits.turnByteBudget
  rw [wideAgent_size] at hlarge
  have hbudget : wideLimits.turnByteBudget = 4096 := rfl
  omega

/-- The batch of the two members, as the theorem decides it. -/
theorem batch_returns_wide : (∃ batch, readUnreadSummaryBatch unreadHost wideStore wideOptions = .ok batch ∧
    Complete wideOptions wideLimits batch) ↔
      ∀ r ∈ (gather unreadHost wideStore (shownRecipients wideOptions wideLimits) wideLimits).recipients,
        Showable wideLimits.turnByteBudget r :=
  batch_returns wideStore wideOptions wideLimits wideOptions_valid wideOptions_unique

/-- **One wide turn takes the summaries of all**: the batch returns nothing, to neither member. -/
theorem wide_turn_blanks_batch : ¬ ∀ (store : UnreadStore) (options : ReaderUnreadBatchOptions)
    (limits : UnreadLimits), validateOptions unreadHost options = .ok limits →
    assertUniqueRecipients (sortedRecipients options) = .ok () →
    ∃ batch, readUnreadSummaryBatch unreadHost store options = .ok batch ∧ Complete options limits batch := by
  intro h
  obtain ⟨batch, hbatch, -⟩ := h wideStore wideOptions wideLimits wideOptions_valid wideOptions_unique
  rw [readUnreadSummaryBatch_eq wideOptions_valid wideOptions_unique] at hbatch
  have hshowable := (finishBatch_iff (validateOptions_budget wideOptions_valid)).1 ⟨batch, hbatch⟩
  exact wideMember_unshowable (hshowable wideMember wide_gathered)

end Barbaro.UnreadBatch
