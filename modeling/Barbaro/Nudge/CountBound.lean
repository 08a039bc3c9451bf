import Barbaro.Core.TextLines
import Barbaro.Lib.JsonExtent
import Barbaro.Nudge.ScanAll
import Mathlib.Algebra.Group.Action.Defs
import Mathlib.Algebra.Order.BigOperators.Group.List
import Mathlib.Tactic.NormNum

/-!
# An unread count is a safe integer

A turn takes at least the bytes of its id, a scan reads at most `maxFeedBytes` of a feed,
and an array has fewer than `2 ^ 32` elements. So no count leaves the range of the safe
integers.

* `read_weight`: the lines of one kind in a read, times the bytes each takes, are at most
  the size of the file.
* `unreadCount_safe`: the unread count of a scan is a safe integer.
-/

namespace Barbaro

/-! ## The bytes of some lines -/

section
variable {α : Type} {parse : JsString → Except JsonlLineError α} {p : JsonlLine α → Bool} {w : ℕ}

variable (parse p w) in
/-- The lines of one kind take this many bytes each, with their line feed. -/
def TakesBytes : Prop := ∀ n o l, p (lineEvent parse n o l) = true → w ≤ l.length + 1

/-- The lines yielded so far are accounted for by the checkpoint. -/
theorem consumeSegments_weight (hp : TakesBytes parse p w) {max stop : Option ℕ} {segments : List Bytes}
    {st st' : ScanState α} {flow : Flow} (h : consumeSegments parse max stop segments st = (st', flow))
    (hst : w * st.events.countP p ≤ st.checkpointOffset) :
    w * st'.events.countP p ≤ st'.checkpointOffset := by
  induction segments generalizing st with
  | nil =>
    obtain ⟨rfl, -⟩ : st = st' ∧ Flow.next = flow := Prod.mk.inj h
    exact hst
  | cons segment segments ih =>
    rw [consumeSegments] at h
    split at h
    · obtain ⟨rfl, -⟩ := Prod.mk.inj h
      exact hst
    · split at h
      · obtain ⟨rfl, -⟩ := Prod.mk.inj h
        exact hst
      · refine ih h ?_
        have hline := hp st.nextLineNumber st.checkpointOffset (st.fragments ++ segment)
        simp only [completeLine, List.countP_append, List.countP_singleton, Nat.mul_add]
        split
        · next hmatch =>
          have := hline hmatch
          omega
        · omega

theorem noteEnd_events (stop : Option ℕ) (st : ScanState α) :
    (noteEnd stop st).events = st.events ∧ (noteEnd stop st).checkpointOffset = st.checkpointOffset := by
  unfold noteEnd
  split
  · exact ⟨rfl, rfl⟩
  · exact ⟨rfl, rfl⟩

theorem consumeChunk_weight (hp : TakesBytes parse p w) {max stop : Option ℕ} {chunk : Bytes}
    {st st' : ScanState α} {flow : Flow} (h : consumeChunk parse max stop st chunk = (st', flow))
    (hst : w * st.events.countP p ≤ st.checkpointOffset) :
    w * st'.events.countP p ≤ st'.checkpointOffset := by
  unfold consumeChunk at h
  split at h
  · obtain ⟨rfl, -⟩ := Prod.mk.inj h
    exact hst
  · split at h
    · next failure hseg =>
      obtain ⟨rfl, -⟩ := Prod.mk.inj h
      exact consumeSegments_weight hp hseg hst
    · next st₁ hseg =>
      obtain ⟨rfl, -⟩ := Prod.mk.inj h
      rw [(noteEnd_events stop st₁).1, (noteEnd_events stop st₁).2]
      exact consumeSegments_weight hp hseg hst
    · next st₁ hseg =>
      have hst₁ := consumeSegments_weight hp hseg hst
      dsimp only at h
      split at h
      · obtain ⟨rfl, -⟩ := Prod.mk.inj h
        rw [(noteEnd_events stop st₁).1, (noteEnd_events stop st₁).2]
        exact hst₁
      · split at h
        · obtain ⟨rfl, -⟩ := Prod.mk.inj h
          exact hst₁
        · obtain ⟨rfl, -⟩ := Prod.mk.inj h
          rw [(noteEnd_events stop _).1, (noteEnd_events stop _).2]
          exact hst₁

theorem consumeChunks_weight (hp : TakesBytes parse p w) {max stop : Option ℕ} {chunks : List Bytes}
    {st st' : ScanState α} {flow : Flow} (h : consumeChunks parse max stop chunks st = (st', flow))
    (hst : w * st.events.countP p ≤ st.checkpointOffset) :
    w * st'.events.countP p ≤ st'.checkpointOffset := by
  induction chunks generalizing st with
  | nil =>
    obtain ⟨rfl, -⟩ : st = st' ∧ Flow.next = flow := Prod.mk.inj h
    exact hst
  | cons chunk chunks ih =>
    rw [consumeChunks] at h
    split at h
    · next st₁ failure hchunk =>
      obtain ⟨rfl, -⟩ := Prod.mk.inj h
      exact consumeChunk_weight hp hchunk hst
    · next st₁ flow' _ hchunk => exact ih h (consumeChunk_weight hp hchunk hst)

/-- **The lines of one kind in a read** are accounted for by the size of the file. -/
theorem read_weight (hp : TakesBytes parse p w) {H : Hasher} {options : JsonlReadOptions}
    {source : JsonlSource} {summary : JsonlReadSummary} {limit : ℕ}
    (hlimit : options.maxFileBytes = some limit)
    (h : (iterateJsonlForward parse H options source).result = .ok summary) :
    w * (iterateJsonlForward parse H options source).events.countP p ≤ limit := by
  rw [iterateJsonlForward] at h ⊢
  split at h
  · cases h
  · next stop hopen =>
    dsimp only at h ⊢
    split at h
    · cases h
    · next st flow _ hrun =>
      have hweight := consumeChunks_weight hp hrun (by simp [ScanState.initial])
      obtain ⟨-, snapshot, anchor, -, hfits, hle, -⟩ := closeRead_ok.1 h
      rw [hlimit, assertFileWithinLimit] at hfits
      have hsize : snapshot.size ≤ limit := by
        by_contra hbig
        rw [if_pos (by omega)] at hfits
        cases hfits
      exact (hweight.trans hle).trans hsize

end

/-! ## The bytes of a turn -/

section
variable {E : Host}

/-- A turn id takes 37 units. -/
theorem turnId_length {s : JsString} (h : isTurnId s = true) : s.length = 37 := by
  simp only [isTurnId, isId, Bool.and_eq_true, beq_iff_eq] at h
  have hdrop := h.1.2
  have htag : ("turn".length + 1) = 5 := rfl
  rw [htag, List.length_drop] at hdrop
  omega

theorem contentBytes_length (l : Bytes) : (contentBytes l).length ≤ l.length := by
  unfold contentBytes
  split
  · rw [List.length_dropLast]
    omega
  · exact Nat.le_refl _

/-- **A line with a turn on it** is at least as long as the id of the turn. -/
theorem turn_takesBytes : TakesBytes (parseJson E) (fun line => (turnOf E line).isSome) 32 := by
  intro n o l h
  unfold lineEvent at h
  dsimp only at h
  split at h
  · cases h
  · next raw hraw =>
    have hlen := textDecode_length hraw
    have hcontent := contentBytes_length l
    split at h
    · next v hv =>
      have hparse : Json.parse E.float raw = some v := by
        unfold parseJson at hv
        split at hv
        · next v' hv' =>
          cases hv
          exact hv'
        · cases hv
      obtain ⟨t, ht⟩ := Option.isSome_iff_exists.1 h
      have hturn : isTurnV1 E v = true := by
        unfold turnOf Turn.ofJson at ht
        dsimp only at ht
        split at ht
        · next hok => exact hok
        · cases ht
      have hid : isPattern isTurnId (v.get (js "turn_id")) = true := by
        simp only [isTurnV1, Bool.and_eq_true] at hturn
        exact hturn.1.1.1.1.1.1.1.1.1.1.1.1.1.1.1.2
      unfold isPattern at hid
      split at hid
      · next s hs =>
        have hmember := Json.parse_member_length hparse hs
        have := turnId_length hid
        omega
      · cases hid
    · cases h

/-! ## Counts -/

variable {epoch : MembershipEpoch E} {reads : NudgeReadState} {targets : Option (List RecordKey)}

/-- One feed has at most `2 ^ 21` unread turns. -/
theorem scanFeed_count {key : FeedKey} {file : BarbaroFeedFile} {checkpoint : Option JsonlCheckpoint}
    {s : FeedScan E} (h : scanFeed epoch key reads targets file checkpoint = .ok s) :
    s.unreadCount ≤ 2 ^ 21 := by
  simp only [scanFeed, Outcome.bind_ok] at h
  obtain ⟨resolution, -, h⟩ := h
  split at h
  · cases h
  · next snapshot _ =>
    simp only [Outcome.bind_ok] at h
    obtain ⟨summary, hread, hclose⟩ := h
    have hweight := read_weight (turn_takesBytes (E := E)) rfl hread
    set ls := (iterateJsonlForward (parseJson E) E.toHasher _ _).events with hls
    have hcount : s.unreadCount = ls.countP (unreadLine epoch key reads) := by
      simp only [closeScan, Outcome.guard_ok, Outcome.bind_ok, Outcome.pure_ok] at hclose
      obtain ⟨-, pre, -, -, c, -, covered, -, rfl⟩ := hclose
      dsimp only
      rw [scanLines_count]
      exact Nat.zero_add _
    have hle : ls.countP (unreadLine epoch key reads) ≤ ls.countP (fun line => (turnOf E line).isSome) := by
      refine List.countP_mono_left fun line _ hu => ?_
      unfold unreadLine at hu
      cases ht : turnOf E line with
      | none => rw [ht] at hu; cases hu
      | some t => rfl
    have hbytes : maxFeedBytes = 32 * 2 ^ 21 := rfl
    rw [hbytes] at hweight
    rw [hcount]
    omega

/-- **The unread count of a scan is a safe integer.** -/
theorem unreadCount_safe {cursor : VirtualCursor} {files : List BarbaroFeedFile}
    (hfiles : (files.map BarbaroFeedFile.key).Nodup) (hlength : files.length < 2 ^ 32)
    (hsaved : (cursor.state.feedCursors.map NudgeFeedCursor.key).Nodup) {scan : ScopedScan E}
    (h : scanState epoch targets cursor files = .ok scan) :
    scan.ready.unreadCount ≤ maxSafeInteger := by
  rw [(scanState_ok hfiles hsaved h).count]
  have hone : ∀ n ∈ files.map (fun f =>
      countOf (scanOf epoch cursor.state.reads targets cursor.state.feedCursors f)), n ≤ 2 ^ 21 := by
    intro n hn
    obtain ⟨f, -, rfl⟩ := List.mem_map.1 hn
    unfold countOf
    cases hs : scanOf epoch cursor.state.reads targets cursor.state.feedCursors f with
    | none => simp
    | some s => exact scanFeed_count (scanOf_some hs).2
  have hsum := List.sum_le_card_nsmul _ _ hone
  rw [List.length_map, smul_eq_mul] at hsum
  have hmax : maxSafeInteger = 2 ^ 53 - 1 := rfl
  have hpow : (2 : ℕ) ^ 53 = 2 ^ 32 * 2 ^ 21 := by norm_num
  have hmul : files.length * 2 ^ 21 ≤ (2 ^ 32 - 1) * 2 ^ 21 := Nat.mul_le_mul_right _ (by omega)
  omega

end

end Barbaro
