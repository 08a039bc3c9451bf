import Barbaro.Nudge.CountBound
import Barbaro.Nudge.ReadSpec
import Barbaro.Nudge.Sound
import Barbaro.Nudge.StoreRoundTrip

/-!
# Valid cursors

The writer runs the strict validator before it replaces the file. What a transaction
starts from always passes it: the cursor of the membership, migrated or fresh, and the
positions of a scan of it.

* `GenerationLe`: the generation of Claude only grows.
* `CursorOk.withTurns`, `CursorOk.pending`: parts of a cursor that change together.
* `scan_feeds`: the positions of a scan are sorted and valid.
* `scanUnread_found`: what every transaction finds.
-/

namespace Barbaro

/-! ## Generations -/

/-- One generation is not after another. -/
def GenerationLe (g g' : Option ℕ) : Prop := ∀ n, g = some n → ∃ m, g' = some m ∧ n ≤ m

theorem GenerationLe.refl (g : Option ℕ) : GenerationLe g g := fun n h => ⟨n, h, le_rfl⟩

theorem GenerationLe.trans {g g' g'' : Option ℕ} (h : GenerationLe g g') (h' : GenerationLe g' g'') :
    GenerationLe g g'' := by
  intro n hn
  obtain ⟨m, hm, hle⟩ := h n hn
  obtain ⟨k, hk, hle'⟩ := h' m hm
  exact ⟨k, hk, hle.trans hle'⟩

section
variable {E : Host} {provider : ParticipatingProvider} {sessionId : JsString} {g g' : Option ℕ}

theorem turnOk_mono {t : NudgeDeliveryTurn} (h : t.ok provider g = true)
    (hg : GenerationLe g g') : t.ok provider g' = true := by
  cases t with
  | codex turnId => exact h
  | claude n =>
    cases g with
    | none => simp [NudgeDeliveryTurn.ok] at h
    | some k =>
      obtain ⟨m, rfl, hle⟩ := hg k rfl
      simp only [NudgeDeliveryTurn.ok, Bool.and_eq_true, decide_eq_true_eq] at h ⊢
      exact ⟨h.1, h.2.trans hle⟩

theorem DeliveryOk.mono {d : NudgeDelivery} (h : DeliveryOk provider g d) (hg : GenerationLe g g') :
    DeliveryOk provider g' d :=
  ⟨h.bound, fun t ht => ⟨turnOk_mono (h.lastTurn t ht).1 hg, (h.lastTurn t ht).2⟩⟩

theorem pendingOk_mono {p : NudgePendingRead} (h : p.ok E provider g = true)
    (hg : GenerationLe g g') : p.ok E provider g' = true := by
  simp only [NudgePendingRead.ok, Bool.and_eq_true] at h ⊢
  exact ⟨h.1, turnOk_mono h.2 hg⟩

theorem NudgeReadState.Ok.mono {s : NudgeReadState} (h : s.Ok E provider g) (hg : GenerationLe g g') :
    s.Ok E provider g' :=
  ⟨fun p hp => pendingOk_mono (h.pending p hp) hg, h.pendingBound, h.nonces, h.toolUseIds, h.coverage,
    h.coverageBound, fun t ht => turnOk_mono (h.informedTurn t ht) hg⟩

theorem emptyNudgeReadState_ok : emptyNudgeReadState.Ok E provider g := by
  refine ⟨?_, Nat.zero_le _, List.nodup_nil, List.nodup_nil, ⟨?_, List.nodup_nil⟩, Nat.zero_le _, ?_⟩
  · intro p hp
    cases hp
  · intro e he
    cases he
  · intro t ht
    cases ht

/-- Nothing has been announced. -/
theorem deliveryOk_zero : DeliveryOk provider g { highestUnreadCount := 0 } :=
  ⟨Nat.zero_le _, fun t ht => by cases ht⟩

/-! ## Parts that change together -/

/-- Some of the pending reads are left. -/
theorem NudgeReadState.Ok.sublist {s : NudgeReadState} (h : s.Ok E provider g)
    {pending : List NudgePendingRead} (hsub : pending.Sublist s.pending) :
    { s with pending }.Ok E provider g :=
  ⟨fun p hp => h.pending p (hsub.subset hp), hsub.length_le.trans h.pendingBound,
    h.nonces.sublist (hsub.map _), h.toolUseIds.sublist (hsub.map _), h.coverage, h.coverageBound,
    h.informedTurn⟩

/-- Some of the coverage is left. -/
theorem CoverageListOk.filter {es : List NudgeReadCoverage} (h : CoverageListOk es)
    (p : NudgeReadCoverage → Bool) : CoverageListOk (es.filter p) :=
  ⟨fun e he => h.ok e (List.mem_of_mem_filter he), h.unique.sublist (List.filter_sublist.map _)⟩

theorem CursorOk.pending {c : NudgeCursorV3} (h : CursorOk E provider sessionId c)
    {pending : List NudgePendingRead} (hsub : pending.Sublist c.reads.pending) :
    CursorOk E provider sessionId (c.withPending pending) :=
  ⟨h.legacy, h.reads.sublist hsub⟩

/-- Another time. -/
theorem CursorOk.stamped {c : NudgeCursorV3} (h : CursorOk E provider sessionId c) {now : ℤ}
    {updatedAt : JsString} (htime : E.isoString now = some updatedAt) :
    CursorOk E provider sessionId { c with updatedAt } := by
  obtain ⟨hp, hs, hb, hstop, hg, hd⟩ := h.legacy
  have hdate : (E.dateParse updatedAt).isSome = true := by
    rw [(E.isoString_parse now updatedAt htime).1]
    rfl
  exact ⟨⟨hp, hs, ⟨hb.session, hb.workstream, hb.membership, hdate, hb.revision, hb.feeds⟩, hstop, hg,
    hd⟩, h.reads⟩

/-- The turns of the recipient, and what was announced to it. -/
theorem CursorOk.withTurns {c : NudgeCursorV3} (h : CursorOk E provider sessionId c)
    {generation : Option ℕ} {informed : Option NudgeDeliveryTurn} {delivery : NudgeDelivery}
    (hgeneration : generationOk provider generation) (hle : GenerationLe c.claudeTurnGeneration generation)
    (hinformed : ∀ t, informed = some t → t.ok provider generation = true)
    (hdelivery : DeliveryOk provider generation delivery) :
    CursorOk E provider sessionId (c.withTurns generation informed delivery) := by
  obtain ⟨hp, hs, hb, hstop, -, -⟩ := h.legacy
  have hr := h.reads.mono hle
  exact ⟨⟨hp, hs, hb, hstop, hgeneration, hdelivery⟩,
    ⟨hr.pending, hr.pendingBound, hr.nonces, hr.toolUseIds, hr.coverage, hr.coverageBound, hinformed⟩⟩

end

/-! ## Positions -/

section
variable {E : Host}

/-- A feed can be told from its key: no provider contains a slash. -/
theorem feedKey_text {a b : FeedKey} (ha : isProvider a.provider = true) (hb : isProvider b.provider = true)
    (h : a.text = b.text) : a = b := by
  obtain ⟨p, s⟩ := a
  obtain ⟨q, t⟩ := b
  have hcut : ∀ {p s q t : JsString}, (47 : UInt16) ∉ p → (47 : UInt16) ∉ q →
      p ++ 47 :: s = q ++ 47 :: t → p = q ∧ s = t := by
    intro p
    induction p with
    | nil =>
      intro s q t _ hq h
      cases q with
      | nil => exact ⟨rfl, (List.cons.inj h).2⟩
      | cons u q =>
        have hu : (47 : UInt16) = u := (List.cons.inj h).1
        exact absurd (hu ▸ List.mem_cons_self) hq
    | cons u p ih =>
      intro s q t hp hq h
      cases q with
      | nil =>
        have hu : u = (47 : UInt16) := (List.cons.inj h).1
        exact absurd (hu ▸ List.mem_cons_self) hp
      | cons w q =>
        obtain ⟨rfl, hrest⟩ := List.cons.inj h
        obtain ⟨rfl, rfl⟩ := ih (fun hm => hp (List.mem_cons_of_mem _ hm))
          (fun hm => hq (List.mem_cons_of_mem _ hm)) hrest
        exact ⟨rfl, rfl⟩
  obtain ⟨rfl, rfl⟩ := hcut (slash_not_mem_provider ha) (slash_not_mem_provider hb) h
  rfl

/-- A position a cursor may hold. -/
def FeedOk (f : NudgeFeedCursor) : Prop :=
  isProvider f.provider = true ∧ isSessionId f.sessionId = true ∧ f.checkpoint.Valid

/-- Different feeds, sorted, are in the order the validator asks for. -/
theorem sortFeedCursors_ok {feeds : List NudgeFeedCursor} (hok : ∀ f ∈ feeds, FeedOk f)
    (hnodup : (feeds.map NudgeFeedCursor.key).Nodup) : FeedsOk (sortFeedCursors feeds) := by
  have hperm : (sortFeedCursors feeds).Perm feeds := List.perm_insertionSort _ _
  refine ⟨fun f hf => hok f (hperm.subset hf), ?_⟩
  have htotal : Std.Total (fun a b : NudgeFeedCursor => compareFeedCursors a b ≠ .gt) := by
    refine ⟨fun a b => ?_⟩
    by_cases h : compareFeedCursors a b = .gt
    · have := (compare_swap b.key.text a.key.text).2 h
      refine .inr ?_
      unfold compareFeedCursors
      rw [this]
      simp
    · exact .inl h
  have htrans : IsTrans NudgeFeedCursor (fun a b => compareFeedCursors a b ≠ .gt) := by
    refine ⟨fun a b c hab hbc hac => ?_⟩
    unfold compareFeedCursors at hab hbc hac
    have hca := (compare_swap c.key.text a.key.text).2 hac
    rcases hab' : compareUtf16CodeUnits a.key.text b.key.text with _ | _ | _
    · have := (compare_swap c.key.text b.key.text).1 (compare_lt_trans hca hab')
      exact hbc this
    · rw [← compare_eq.1 hab'] at hbc
      exact hbc hac
    · exact hab hab'
  have hsorted : (sortFeedCursors feeds).Pairwise (fun a b => compareFeedCursors a b ≠ .gt) :=
    List.pairwise_insertionSort _ _
  have hdiff : (sortFeedCursors feeds).Pairwise (fun a b => a.key ≠ b.key) :=
    List.pairwise_map.1 ((hperm.map _).nodup_iff.2 hnodup)
  refine (hsorted.and hdiff).imp_of_mem fun {a b} ha hb h => ?_
  obtain ⟨hle, hne⟩ := h
  have htext : a.key.text ≠ b.key.text := fun heq =>
    hne (feedKey_text (hok a (hperm.subset ha)).1 (hok b (hperm.subset hb)).1 heq)
  rcases compare_total htext with hlt | hgt
  · exact hlt
  · exact absurd ((compare_swap b.key.text a.key.text).1 hgt) hle

theorem FeedsOk.nodup {feeds : List NudgeFeedCursor} (h : FeedsOk feeds) :
    (feeds.map NudgeFeedCursor.key).Nodup := by
  refine List.pairwise_map.2 (h.sorted.imp fun {a b} hlt heq => ?_)
  unfold compareFeedCursors at hlt
  rw [heq, compare_eq.2 rfl] at hlt
  cases hlt

variable {epoch : MembershipEpoch E} {reads : NudgeReadState} {targets : Option (List RecordKey)}
  {saved : List NudgeFeedCursor}

theorem scanFeed_valid {key : FeedKey} {file : BarbaroFeedFile} {checkpoint : Option JsonlCheckpoint}
    {s : FeedScan E} (h : scanFeed epoch key reads targets file checkpoint = .ok s) :
    s.coveredCheckpoint.Valid := by
  simp only [scanFeed, Outcome.bind_ok] at h
  obtain ⟨resolution, -, h⟩ := h
  split at h
  · cases h
  · simp only [Outcome.bind_ok, closeScan, Outcome.guard_ok, Outcome.pure_ok] at h
    obtain ⟨summary, -, -, pre, -, -, c, -, covered, hcovered, rfl⟩ := h
    exact (createJsonlCheckpoint_ok.1 hcovered).1

theorem coverFeed_valid {covered : List NudgeFeedCursor} (h : ∀ f ∈ covered, FeedOk f) {key : FeedKey}
    (hp : isProvider key.provider = true) (hs : isSessionId key.sessionId = true)
    {prior : Option JsonlCheckpoint} {c : JsonlCheckpoint} (hc : c.Valid) :
    ∀ f ∈ coverFeed covered key prior c, FeedOk f := by
  intro f hf
  unfold coverFeed at hf
  dsimp only at hf
  split at hf
  · rcases List.mem_append.1 hf with hf | hf
    · exact h f (List.mem_of_mem_filter hf)
    · rw [List.mem_singleton.1 hf]
      exact ⟨hp, hs, hc⟩
  · exact h f (List.mem_of_mem_filter hf)

/-- The positions stay valid over the loop. -/
theorem scanFiles_valid {files : List BarbaroFeedFile} {st st' : UnreadScan E}
    (h : files.foldlM (scanOne epoch reads targets saved) st = .ok st')
    (hok : ∀ f ∈ st.covered, FeedOk f) : ∀ f ∈ st'.covered, FeedOk f := by
  induction files generalizing st with
  | nil =>
    simp only [List.foldlM_nil, Outcome.pure_ok] at h
    exact h ▸ hok
  | cons file files ih =>
    simp only [List.foldlM_cons, Outcome.bind_ok] at h
    obtain ⟨st₁, hone, hrest⟩ := h
    refine ih hrest ?_
    rcases scanOne_ok hone with ⟨-, -, rfl⟩ | ⟨-, -, f, rfl⟩ | ⟨s, hs, rfl⟩
    · exact hok
    · exact hok
    · exact coverFeed_valid hok file.provider_ok file.sessionId_ok (scanFeed_valid (scanOf_some hs).2)

/-- **The positions of a scan** are valid and in order. -/
theorem scan_feeds {cursor : VirtualCursor} {files : List BarbaroFeedFile}
    (hfiles : (files.map BarbaroFeedFile.key).Nodup) (hsaved : FeedsOk cursor.state.feedCursors)
    {scan : ScopedScan E} (h : scanState epoch targets cursor files = .ok scan) :
    FeedsOk scan.coveredFeedCursors := by
  simp only [scanState, Outcome.bind_ok, Outcome.pure_ok] at h
  obtain ⟨st, hst, rfl⟩ := h
  obtain ⟨-, -, hcovered, -, -, -⟩ := noteMissing_spec
    (cursor.state.feedCursors.filter (fun f => f.key ∉ files.map BarbaroFeedFile.key))
    ({ covered := cursor.state.feedCursors } : UnreadScan E)
  refine sortFeedCursors_ok (scanFiles_valid hst ?_) ((scanFiles_ok hfiles hst).nodup ?_)
  · rw [hcovered]
    exact hsaved.each
  · rw [hcovered]
    exact hsaved.nodup

end

/-! ## The cursor of the membership -/

theorem generationOk_codex {g : Option ℕ} (h : generationOk .codex g) : g = none := by
  cases g with
  | none => rfl
  | some n => exact absurd h id

section
variable {E : Host} {epoch : MembershipEpoch E} {current : Option NudgeCursor}

variable (E current) in
/-- The file of a session holds a valid cursor of any schema, or there is none. -/
def StoredOk (provider : ParticipatingProvider) (sessionId : JsString) : Prop :=
  ∀ c, current = some c → c.Ok E provider sessionId

variable (current) in
/-- The generation is not before the one in the file. -/
def Follows (s : NudgeCursorV3) : Prop :=
  ∀ c, current = some (.v3 c) → GenerationLe c.claudeTurnGeneration s.claudeTurnGeneration

theorem Follows.later {s s' : NudgeCursorV3} (h : Follows current s)
    (hle : GenerationLe s.claudeTurnGeneration s'.claudeTurnGeneration) : Follows current s' :=
  fun c hc => (h c hc).trans hle

theorem migratedCursor_valid {c : NudgeCursorV1} (h : CursorV1Ok E epoch.provider epoch.sessionId c) :
    CursorOk E epoch.provider epoch.sessionId (migratedCursor epoch c) := by
  obtain ⟨hp, hs, hb, -⟩ := h
  refine ⟨⟨hp, hs, hb, fun r hr => ?_, ?_, deliveryOk_zero⟩, emptyNudgeReadState_ok⟩
  · unfold migratedCursor at hr
    dsimp only at hr
    split at hr
    · exact (Option.some.inj hr).symm
    · cases hr
  · unfold migratedCursor
    dsimp only
    cases epoch.provider with
    | claude => exact ⟨le_rfl, by decide⟩
    | codex => trivial

/-- The generation a fresh cursor takes over. -/
theorem freshCursor_generation (hcurrent : StoredOk E current epoch.provider epoch.sessionId)
    (revision : ℕ) :
    generationOk epoch.provider (freshCursor epoch current revision).claudeTurnGeneration ∧
      Follows current (freshCursor epoch current revision) := by
  unfold Follows freshCursor
  dsimp only
  cases hp : epoch.provider with
  | codex =>
    refine ⟨trivial, fun c hc n hn => ?_⟩
    have hok : CursorOk E epoch.provider epoch.sessionId c := hcurrent _ hc
    have hnone := hok.legacy.generation
    rw [hp] at hnone
    rw [generationOk_codex hnone] at hn
    cases hn
  | claude =>
    cases current with
    | none => exact ⟨⟨le_rfl, by decide⟩, fun c hc => by cases hc⟩
    | some c =>
      have hok := hcurrent c rfl
      dsimp only
      refine ⟨?_, fun c' hc => by cases hc; exact .refl _⟩
      cases c with
      | v1 c => exact ⟨le_rfl, by decide⟩
      | v2 c =>
        have hgen := CursorV2Ok.generation hok
        rwa [hp] at hgen
      | v3 c =>
        have hgen := (CursorOk.legacy hok).generation
        rwa [hp] at hgen

theorem freshCursor_valid (hcurrent : StoredOk E current epoch.provider epoch.sessionId) {revision : ℕ}
    (hrevision : 1 ≤ revision ∧ revision ≤ maxSafeInteger) :
    CursorOk E epoch.provider epoch.sessionId (freshCursor epoch current revision) := by
  have hgen := (freshCursor_generation hcurrent revision).1
  have hfeeds : FeedsOk [] := ⟨(fun f hf => by cases hf), .nil⟩
  exact ⟨⟨rfl, rfl, ⟨epoch.sessionId_ok, epoch.workstreamId_ok, epoch.start_ok, epoch.start_ok, hrevision,
    hfeeds⟩, (fun r hr => by cases hr), hgen, deliveryOk_zero⟩, emptyNudgeReadState_ok⟩

/-- **The cursor of the membership** is valid, migrated or fresh. -/
theorem virtualCursor_valid (hcurrent : StoredOk E current epoch.provider epoch.sessionId)
    {v : VirtualCursor} (h : virtualCursor epoch current = .ok v) :
    CursorOk E epoch.provider epoch.sessionId v.state ∧ Follows current v.state := by
  unfold virtualCursor at h
  split at h
  · next c hc =>
    obtain ⟨hcur, -⟩ := Option.filter_eq_some_iff.1 hc
    cases h
    refine ⟨hcurrent _ hcur, fun c' hc' => ?_⟩
    rw [hcur] at hc'
    cases hc'
    exact .refl _
  · next c hc =>
    obtain ⟨hcur, -⟩ := Option.filter_eq_some_iff.1 hc
    cases h
    have hok : CursorV2Ok E epoch.provider epoch.sessionId c := hcurrent _ hcur
    refine ⟨⟨hok, emptyNudgeReadState_ok⟩, fun c' hc' => ?_⟩
    rw [hcur] at hc'
    cases hc'
  · next c hc =>
    obtain ⟨hcur, -⟩ := Option.filter_eq_some_iff.1 hc
    cases h
    refine ⟨migratedCursor_valid (hcurrent _ hcur), fun c' hc' => ?_⟩
    rw [hcur] at hc'
    cases hc'
  · dsimp only at h
    simp only [Outcome.guard_ok, Except.ok.injEq, gt_iff_lt, not_lt] at h
    obtain ⟨hle, rfl⟩ := h
    exact ⟨freshCursor_valid hcurrent ⟨by omega, hle⟩, (freshCursor_generation hcurrent _).2⟩

/-- The pending reads of the membership are those in the file, or there are none. -/
theorem virtualCursor_pending {v : VirtualCursor} (h : virtualCursor epoch current = .ok v) :
    v.state.reads.pending = [] ∨ ∃ c, current = some (.v3 c) ∧ v.state.reads.pending = c.reads.pending := by
  unfold virtualCursor at h
  split at h
  · next c hc =>
    cases h
    exact .inr ⟨c, (Option.filter_eq_some_iff.1 hc).1, rfl⟩
  · cases h
    exact .inl rfl
  · cases h
    exact .inl rfl
  · dsimp only at h
    simp only [Outcome.guard_ok, Except.ok.injEq] at h
    obtain ⟨-, rfl⟩ := h
    exact .inl rfl

/-- What a transaction finds: a valid cursor and a scan of it. -/
structure Found (epoch : MembershipEpoch E) (current : Option NudgeCursor) (scan : ScopedScan E) : Prop where
  valid : CursorOk E epoch.provider epoch.sessionId scan.cursor.state
  follows : Follows current scan.cursor.state
  feeds : FeedsOk scan.coveredFeedCursors
  count : scan.ready.unreadCount ≤ maxSafeInteger

/-- A listing names each feed once, and is an array. -/
def Listed (files : List BarbaroFeedFile) : Prop :=
  (files.map BarbaroFeedFile.key).Nodup ∧ files.length < 2 ^ 32

theorem scanUnread_found (hcurrent : StoredOk E current epoch.provider epoch.sessionId)
    {files : List BarbaroFeedFile} (hfiles : Listed files) {targets : Option (List RecordKey)} {scan : ScopedScan E}
    (h : scanUnread epoch targets current files = .ok scan) : Found epoch current scan := by
  obtain ⟨v, hv, hstate, rfl⟩ := scanUnread_ok h
  obtain ⟨hok, hfollows⟩ := virtualCursor_valid hcurrent hv
  have hfeeds := hok.legacy.base.feeds
  exact ⟨hok, hfollows, scan_feeds hfiles.1 hfeeds hstate,
    unreadCount_safe hfiles.1 hfiles.2 hfeeds.nodup hstate⟩

end

end Barbaro
